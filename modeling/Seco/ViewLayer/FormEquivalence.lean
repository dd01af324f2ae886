import Seco.General.Machines
import Seco.ViewLayer.EmailAddress

namespace Seco

def IssueVC.machine (count : String → Nat) : Machine IssueVC FormEvent (Option Outcome) where
  next := IssueVC.next
  out := IssueVC.outcome count

def FormView.machine (count : String → Nat) : Machine IssueUI FormEvent (Option Outcome) where
  next := FormView.next
  out := FormView.outcome count

-- what happened to one text row: the text typed last, whether the row was reconfigured after that,
-- and whether its editing ended with the reconfigured text on screen
structure TextHistory where
  initial : String
  typed : String
  reconfigured : Bool := false
  lost : Bool := false
  deriving DecidableEq

namespace TextHistory

variable (h : TextHistory) (text : String)

def change : TextHistory := ⟨h.initial, text, false, false⟩

def reconfigure : TextHistory := { h with reconfigured := true }

def endEditing : TextHistory := { h with lost := h.reconfigured }

def shown : String := if h.reconfigured then h.initial else h.typed

def kept : String := if h.lost then h.initial else h.typed

@[simp] theorem change_shown : (h.change text).shown = text := rfl

@[simp] theorem change_kept : (h.change text).kept = text := rfl

@[simp] theorem reconfigure_shown : h.reconfigure.shown = h.initial := rfl

@[simp] theorem reconfigure_kept : h.reconfigure.kept = h.kept := rfl

@[simp] theorem endEditing_shown : h.endEditing.shown = h.shown := rfl

@[simp] theorem endEditing_kept : h.endEditing.kept = h.shown := rfl

theorem kept_eq_typed_iff : h.kept = h.typed ↔ (h.lost = true → h.typed = h.initial) := by
  unfold kept
  split
  · rename_i hl
    simp [hl, eq_comm]
  · rename_i hl
    simp [hl]

end TextHistory

structure FormHistory where
  route : String
  text : AttributeIssueType → TextHistory
  timestamp : Date
  report : String

namespace FormHistory

def start (issueVM : IssueVM) : FormHistory where
  route := issueVM.route
  text type := ⟨type.getValue issueVM, type.getValue issueVM, false, false⟩
  timestamp := issueVM.timestamp
  report := issueVM.report

variable (h : FormHistory)

def setText (type : AttributeIssueType) (row : TextHistory) : FormHistory :=
  { h with text := Function.update h.text type row }

def next : FormEvent → FormHistory
  | .textFieldDidChange type text => h.setText type ((h.text type).change text)
  | .textViewDidChange text => { h with report := text }
  | .datePickerChanged date => { h with timestamp := date }
  | .cellForRowAt (.attributeIssue type) => h.setText type (h.text type).reconfigure
  | .textFieldDidEndEditing type => h.setText type (h.text type).endEditing
  | .textFieldShouldReturn type => h.setText type (h.text type).endEditing
  | _ => h

def typed : IssueUI where
  route := h.route
  name := (h.text .name).typed
  surename := (h.text .surename).typed
  email := (h.text .email).typed
  timestamp := h.timestamp
  report := h.report
  phone := (h.text .phone).typed

def kept : IssueVM where
  route := h.route
  name := (h.text .name).kept
  surename := (h.text .surename).kept
  email := (h.text .email).kept
  timestamp := h.timestamp
  report := h.report
  phone := (h.text .phone).kept

variable {h} {type : AttributeIssueType} {row : TextHistory}

@[simp] theorem setText_text_self : (h.setText type row).text type = row := by
  simp [setText]

@[simp] theorem setText_text_of_ne {type' : AttributeIssueType} (hne : type' ≠ type) :
    (h.setText type row).text type' = h.text type' := by
  simp [setText, hne]

theorem setText_typed (hr : row.typed = (h.text type).typed) :
    (h.setText type row).typed = h.typed := by
  cases type <;> simp [typed, setText, hr]

theorem setText_kept : (h.setText type row).kept = IssueVC.onValueChanged type row.kept h.kept := by
  cases type <;> rfl

theorem kept_eq_typed_iff : Issue.initIssueVM h.kept = Issue.initIssueUI h.typed ↔
    ∀ type, (h.text type).lost = true → (h.text type).typed = (h.text type).initial := by
  simp only [← TextHistory.kept_eq_typed_iff]
  constructor
  · intro he type
    rw [Issue.initIssueVM, Issue.initIssueUI, Issue.mk.injEq] at he
    cases type
    · exact he.2.1
    · exact he.2.2.1
    · exact he.2.2.2.1
    · exact he.2.2.2.2.2.2
  · intro ht
    simp [Issue.initIssueVM, Issue.initIssueUI, kept, typed, ht]

end FormHistory

section Runs

variable {count : String → Nat} {h : FormHistory} {issueVC : IssueVC}

theorem FormView.next_typed (h : FormHistory) (e : FormEvent) :
    FormView.next h.typed e = (h.next e).typed := by
  cases e with
  | textFieldDidChange type text => cases type <;> rfl
  | cellForRowAt row =>
    cases row with
    | attributeIssue type =>
      have hr : (h.text type).reconfigure.typed = (h.text type).typed := rfl
      rw [FormHistory.next, FormHistory.setText_typed hr]
      rfl
    | _ => rfl
  | textFieldDidEndEditing type =>
    have hr : (h.text type).endEditing.typed = (h.text type).typed := rfl
    rw [FormHistory.next, FormHistory.setText_typed hr]
    rfl
  | textFieldShouldReturn type =>
    have hr : (h.text type).endEditing.typed = (h.text type).typed := rfl
    rw [FormHistory.next, FormHistory.setText_typed hr]
    rfl
  | _ => rfl

structure Displays (issueVC : IssueVC) (h : FormHistory) : Prop where
  kept : issueVC.issueVM = h.kept
  initial : ∀ type, type.getValue issueVC.issueView.issueVM = (h.text type).initial
  shown : ∀ type, issueVC.issueView.txtAttributeValue type = (h.text type).shown

theorem Displays.initial_setText {type : AttributeIssueType} {row : TextHistory}
    (hd : Displays issueVC h) (hr : row.initial = (h.text type).initial)
    (type' : AttributeIssueType) : type'.getValue issueVC.issueView.issueVM =
      ((h.setText type row).text type').initial := by
  by_cases he : type' = type
  · subst he
    rw [FormHistory.setText_text_self, hr, hd.initial]
  · rw [FormHistory.setText_text_of_ne he, hd.initial]

theorem displays_viewDidLoad (issueVM : IssueVM) :
    Displays (IssueVC.viewDidLoad issueVM) (FormHistory.start issueVM) :=
  ⟨rfl, fun _ => rfl, fun _ => rfl⟩

theorem Displays.shown_setText {type : AttributeIssueType} {row : TextHistory} {text : String}
    (hd : Displays issueVC h) (hr : row.shown = text) (type' : AttributeIssueType) :
    (issueVC.issueView.setText type text).txtAttributeValue type' =
      ((h.setText type row).text type').shown := by
  by_cases he : type' = type
  · subst he
    rw [FormHistory.setText_text_self, hr]
    simp [IssueView.setText]
  · rw [FormHistory.setText_text_of_ne he, ← hd.shown]
    simp [IssueView.setText, he]

theorem IssueVC.textFieldShouldReturn_eq (type : AttributeIssueType) (issueVC : IssueVC) :
    issueVC.textFieldShouldReturn type = issueVC.textFieldDidEndEditing type := by
  cases type <;> rfl

theorem displays_textFieldDidEndEditing (hd : Displays issueVC h) (type : AttributeIssueType) :
    Displays (issueVC.textFieldDidEndEditing type) (h.setText type (h.text type).endEditing) := by
  refine ⟨?_, hd.initial_setText rfl, fun type' => ?_⟩
  · rw [FormHistory.setText_kept, TextHistory.endEditing_kept, ← hd.kept, ← hd.shown]
    rfl
  · by_cases he : type' = type
    · subst he
      rw [FormHistory.setText_text_self, TextHistory.endEditing_shown, ← hd.shown]
      rfl
    · rw [FormHistory.setText_text_of_ne he, ← hd.shown]
      rfl

theorem displays_next (hd : Displays issueVC h) (e : FormEvent) :
    Displays (issueVC.next e) (h.next e) := by
  cases e with
  | textFieldDidChange type text =>
    have hs : ((h.text type).change text).shown = text := (h.text type).change_shown text
    refine ⟨?_, hd.initial_setText rfl, hd.shown_setText hs⟩
    rw [FormHistory.next, FormHistory.setText_kept, TextHistory.change_kept, ← hd.kept]
    rfl
  | textViewDidChange text =>
    refine ⟨?_, hd.initial, hd.shown⟩
    rw [IssueVC.next, IssueVC.textViewDidChange, hd.kept]
    rfl
  | datePickerChanged date =>
    refine ⟨?_, hd.initial, hd.shown⟩
    rw [IssueVC.next, IssueVC.datePickerChanged, hd.kept]
    rfl
  | cellForRowAt row =>
    cases row with
    | attributeIssue type =>
      have hs : (h.text type).reconfigure.shown = type.getValue issueVC.issueView.issueVM := by
        rw [TextHistory.reconfigure_shown, hd.initial]
      refine ⟨?_, hd.initial_setText rfl, hd.shown_setText hs⟩
      rw [FormHistory.next, FormHistory.setText_kept, TextHistory.reconfigure_kept, IssueVC.next,
        hd.kept]
      cases type <;> rfl
    | _ => exact ⟨hd.kept, hd.initial, hd.shown⟩
  | textFieldDidEndEditing type => exact displays_textFieldDidEndEditing hd type
  | textFieldShouldReturn type =>
    rw [IssueVC.next, IssueVC.textFieldShouldReturn_eq]
    exact displays_textFieldDidEndEditing hd type
  | save => exact hd

theorem displays_after (count : String → Nat) (hd : Displays issueVC h) (events : List FormEvent) :
    Displays ((IssueVC.machine count).after issueVC events) (events.foldl FormHistory.next h) := by
  induction events generalizing issueVC h with
  | nil => exact hd
  | cons e events ih => exact ih (displays_next hd e)

theorem FormView.after_typed (count : String → Nat) (h : FormHistory) (events : List FormEvent) :
    (FormView.machine count).after h.typed events = (events.foldl FormHistory.next h).typed := by
  induction events generalizing h with
  | nil => rfl
  | cons e events ih =>
    rw [Machine.after_cons, List.foldl_cons, ← ih, ← FormView.next_typed]
    rfl

theorem isFormProperlyFilled_eq {issueVM : IssueVM} {issueUI : IssueUI}
    (he : Issue.initIssueVM issueVM = Issue.initIssueUI issueUI) :
    IssueVC.isFormProperlyFilled count issueVM = FormView.isFormProperlyFilled count issueUI := by
  rw [Issue.initIssueVM, Issue.initIssueUI, Issue.mk.injEq] at he
  obtain ⟨-, hn, hs, hm, -, hr, -⟩ := he
  rw [IssueVC.isFormProperlyFilled, FormView.isFormProperlyFilled, hn, hs, hm, hr]
  rfl

theorem onSaveAction_eq_iff {issueUI : IssueUI} :
    issueVC.onSaveAction count = FormView.onAction count issueUI ↔
      Issue.initIssueVM issueVC.issueVM = Issue.initIssueUI issueUI ∨
        IssueVC.isFormProperlyFilled count issueVC.issueVM = false ∧
        FormView.isFormProperlyFilled count issueUI = false := by
  rw [IssueVC.onSaveAction, FormView.onAction]
  constructor
  · intro h
    split at h <;> split at h
    · exact .inl (by simpa using h)
    · cases h
    · cases h
    · exact .inr ⟨by simpa using ‹¬ IssueVC.isFormProperlyFilled count issueVC.issueVM = true›,
        by simpa using ‹¬ FormView.isFormProperlyFilled count issueUI = true›⟩
  · rintro (h | ⟨hv, hu⟩)
    · rw [isFormProperlyFilled_eq h, h]
    · simp [hv, hu]

def SavesTyped (count : String → Nat) (h : FormHistory) : Prop :=
  (∀ type, (h.text type).lost = true → (h.text type).typed = (h.text type).initial) ∨
  IssueVC.isFormProperlyFilled count h.kept = false ∧
  FormView.isFormProperlyFilled count h.typed = false

theorem Displays.onSaveAction_eq_iff (hd : Displays issueVC h) :
    issueVC.onSaveAction count = FormView.onAction count h.typed ↔ SavesTyped count h := by
  rw [Seco.onSaveAction_eq_iff, hd.kept, FormHistory.kept_eq_typed_iff, SavesTyped]

theorem forms_outputs_eq_iff (count : String → Nat) (now : Date) (issue : Issue)
    (events : List FormEvent) :
    (IssueVC.machine count).outputs (IssueVC.viewDidLoad (IssueVM.initIssue now issue)) events =
      (FormView.machine count).outputs (IssueUI.initIssue now issue) events ↔
    ∀ pre post, events = pre ++ .save :: post → SavesTyped count
      (pre.foldl FormHistory.next (FormHistory.start (IssueVM.initIssue now issue))) := by
  have hd := displays_viewDidLoad (IssueVM.initIssue now issue)
  have hu := FormView.after_typed count (FormHistory.start (IssueVM.initIssue now issue))
  rw [Machine.outputs_eq_iff]
  constructor
  · intro h pre post he
    have hs := h pre .save post he
    rw [← (displays_after count hd pre).onSaveAction_eq_iff, ← hu]
    exact Option.some.inj hs
  · intro h pre e post he
    cases e with
    | save =>
      have hs := h pre post he
      rw [← (displays_after count hd pre).onSaveAction_eq_iff, ← hu] at hs
      exact congrArg some hs
    | _ => rfl

def overwritten (type : AttributeIssueType) (text : String) : List FormEvent :=
  [.textFieldDidChange type text, .cellForRowAt (.attributeIssue type),
    .textFieldDidEndEditing type, .save]

theorem outputs_overwritten (type : AttributeIssueType) (text : String) (issueVM : IssueVM) :
    (IssueVC.machine count).outputs (IssueVC.viewDidLoad issueVM) (overwritten type text) =
      [none, none, none, some ((IssueVC.viewDidLoad issueVM).onSaveAction count)] := by
  have hk : ((IssueVC.machine count).after (IssueVC.viewDidLoad issueVM)
      [.textFieldDidChange type text, .cellForRowAt (.attributeIssue type),
        .textFieldDidEndEditing type]).issueVM = issueVM := by
    cases type <;> rfl
  simp only [Machine.after_cons, Machine.after_nil] at hk
  change [none, none, none, some (IssueVC.onSaveAction count _)] = _
  rw [IssueVC.onSaveAction, hk]
  rfl

def pepito : Issue := Issue.initIssueUI (FormView.previews ⟨123⟩)

theorem initIssue_pepito : IssueUI.initIssue ⟨0⟩ pepito = FormView.previews ⟨123⟩ := by
  have ht : (0 : Double) ≤ 123 := by decide
  exact (IssueUI.initIssue_initIssueUI_iff _ _).mpr (.inl ht)

theorem outputs_pepito : (IssueVC.machine String.length).outputs
    (IssueVC.viewDidLoad (IssueVM.initIssue ⟨0⟩ pepito)) (overwritten .name "Eve") =
      [none, none, none, some (.save pepito)] := by
  have hm : Issue.initIssueVM (IssueVM.initIssue ⟨0⟩ pepito) =
      Issue.initIssueUI (FormView.previews ⟨123⟩) := congrArg Issue.initIssueUI initIssue_pepito
  rw [outputs_overwritten, IssueVC.onSaveAction, IssueVC.viewDidLoad, isFormProperlyFilled_eq hm,
    FormView.isFormProperlyFilled_previews, hm]
  rfl

theorem outputs_eve : (FormView.machine String.length).outputs
    (IssueUI.initIssue ⟨0⟩ pepito) (overwritten .name "Eve") =
      [none, none, none, some (.save { pepito with name := "Eve" })] := by
  have he : FormView.isFormProperlyFilled String.length
      { FormView.previews ⟨123⟩ with name := "Eve" } = true :=
    FormView.isFormProperlyFilled_previews ⟨123⟩
  rw [initIssue_pepito]
  change [none, none, none, some (FormView.onAction String.length
    { FormView.previews ⟨123⟩ with name := "Eve" })] = _
  rw [FormView.onAction, he]
  rfl

theorem forms_outputs_ne :
    (IssueVC.machine String.length).outputs
      (IssueVC.viewDidLoad (IssueVM.initIssue ⟨0⟩ pepito)) (overwritten .name "Eve") ≠
    (FormView.machine String.length).outputs
      (IssueUI.initIssue ⟨0⟩ pepito) (overwritten .name "Eve") := by
  rw [outputs_pepito, outputs_eve]
  decide

end Runs

end Seco
