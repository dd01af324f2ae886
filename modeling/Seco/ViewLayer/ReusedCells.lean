import Seco.ViewLayer.IssueTable

namespace Seco

open Runs

namespace IssueTable

section Cells

variable {view : IssueTableView} {type : AttributeIssueType} {text : String}
  {cell : AttributeIssueTVC}

structure ShowsText (view : IssueTableView) (type : AttributeIssueType) (text : String)
    (cell : AttributeIssueTVC) : Prop where
  attributePersonType : cell.attributePersonType =
    (PersonDetailViewOptions.attributeIssue type).getAttributePersonType view.issueVM
  callbacks : cell.toAttributeCallbacks = view.toAttributeCallbacks
  label : cell.attributePersonType.map AttributePersonType.getText = some cell.lblAttributeName
  text : cell.txtAttributeValue = text

structure ShowsDate (view : IssueTableView) (date : Date) (cell : DateSelectorTVC) : Prop where
  callback : cell.onTimestampValueChanged = view.onTimestampValueChanged
  label : cell.lblAttributeName = "issue_timestamp"
  date : cell.pckTimeStamp = date

structure ShowsReport (view : IssueTableView) (text : String) (cell : ReportTVC) : Prop where
  attributePersonType : cell.attributePersonType = some (.report view.issueVM)
  callback : cell.onReportValueChanged = view.onReportValueChanged
  label : cell.lblAttributeName = "issue_report"
  text : cell.txtReport = text

theorem ShowsText.change (h : ShowsText view type text cell) (changed : String) :
    ShowsText view type changed { cell with txtAttributeValue := changed } :=
  ⟨h.attributePersonType, h.callbacks, h.label, rfl⟩

theorem ShowsText.onValueChanged {count : String → Nat} {issueVM : Option IssueVM}
    (h : ShowsText (setupViewController count issueVM) type text cell) :
    cell.onValueChanged = IssueVC.onValueChanged type text := by
  have hc : cell.toAttributeCallbacks = (setupViewController count issueVM).toAttributeCallbacks :=
    h.callbacks
  funext form
  rw [AttributeIssueTVC.onValueChanged, h.attributePersonType, h.text]
  cases type <;>
    simp [PersonDetailViewOptions.getAttributePersonType, AttributePersonType.onValueChanged, hc,
      setupViewController, IssueVC.onValueChanged]

theorem ShowsReport.onValueChanged {count : String → Nat} {issueVM : Option IssueVM}
    {cell : ReportTVC} (h : ShowsReport (setupViewController count issueVM) text cell)
    (form : IssueVM) : cell.onValueChanged form = { form with report := text } := by
  simp [ReportTVC.onValueChanged, h.attributePersonType, h.text, h.callback,
    AttributePersonType.onReportValueChanged, setupViewController]

end Cells

structure Shows (count : String → Nat) (table : IssueTable) (issueVC : IssueVC) : Prop where
  issueVM : table.issueVM = some issueVC.issueVM
  issueView : table.issueView = setupViewController count (some issueVC.issueView.issueVM)
  text : table.attributeIssueTVC.Each fun type =>
    ShowsText table.issueView type (issueVC.issueView.txtAttributeValue type)
  date : table.dateSelectorTVC.Each fun _ =>
    ShowsDate table.issueView issueVC.issueView.pckTimeStamp
  report : table.reportTVC.Each fun _ => ShowsReport table.issueView issueVC.issueView.txtReport
  action : table.actionIssueTVC.Each fun _ cell => cell.onSaveAction = IssueTableView.onSaveAction

section Runs

variable {count : String → Nat} {table next : IssueTable} {issueVC : IssueVC}

theorem shows_viewDidLoad (issueVM : IssueVM) :
    Shows count (viewDidLoad count (some issueVM)) (IssueVC.viewDidLoad issueVM) :=
  ⟨rfl, rfl, ReusePool.each_fresh _, ReusePool.each_fresh _, ReusePool.each_fresh _,
    ReusePool.each_fresh _⟩

theorem getAttributePersonType_attributeIssue (type : AttributeIssueType) (issueVM : IssueVM) :
    ∃ attributePersonType : AttributePersonType,
      (PersonDetailViewOptions.attributeIssue type).getAttributePersonType (some issueVM) =
        some attributePersonType ∧ attributePersonType.getValue = type.getValue issueVM := by
  cases type <;> exact ⟨_, rfl, rfl⟩

theorem Shows.setText (h : Shows count table issueVC) {type : AttributeIssueType} {text : String}
    {pool : ReusePool AttributeIssueType AttributeIssueTVC} {shown : AttributeIssueTVC}
    (hp : pool.shown = Function.update table.attributeIssueTVC.shown type (some shown))
    (hs : ShowsText table.issueView type text shown) :
    pool.Each fun type' => ShowsText table.issueView type'
      ((issueVC.issueView.setText type text).txtAttributeValue type') := by
  refine h.text.place hp (fun type' cell hne hc => ?_) ?_
  · have hu : (issueVC.issueView.setText type text).txtAttributeValue type' =
        issueVC.issueView.txtAttributeValue type' := Function.update_of_ne hne _ _
    rwa [hu]
  · have hu : (issueVC.issueView.setText type text).txtAttributeValue type = text :=
      Function.update_self ..
    rwa [hu]

theorem Shows.issueView_issueVM (h : Shows count table issueVC) :
    table.issueView.issueVM = some issueVC.issueView.issueVM := by
  rw [h.issueView, setupViewController]

theorem Shows.configure (h : Shows count table issueVC) {row : PersonDetailViewOptions} {cell : Nat}
    (hs : table.configure row cell issueVC.issueView.issueVM = some next) :
    Shows count next (issueVC.next (.cellForRowAt row)) := by
  have hview : table.issueView.issueVM = some issueVC.issueView.issueVM := h.issueView_issueVM
  cases row with
  | attributeIssue type =>
    obtain ⟨attributePersonType, ht, hv⟩ :=
      getAttributePersonType_attributeIssue type issueVC.issueView.issueVM
    simp only [IssueTable.configure, ht] at hs
    obtain ⟨pool, hp, rfl⟩ := Option.map_eq_some_iff.mp hs
    refine ⟨h.issueVM, h.issueView, ?_, h.date, h.report, h.action⟩
    refine h.setText (ReusePool.shown_dequeue hp) ⟨?_, rfl, rfl, hv⟩
    rw [hview, ht]
    rfl
  | timestamp =>
    obtain ⟨pool, hp, rfl⟩ := Option.map_eq_some_iff.mp hs
    refine ⟨h.issueVM, h.issueView, h.text, ?_, h.report, h.action⟩
    exact h.date.place (ReusePool.shown_dequeue hp) (fun _ _ hne => absurd rfl hne) ⟨rfl, rfl, rfl⟩
  | report =>
    obtain ⟨pool, hp, rfl⟩ := Option.map_eq_some_iff.mp hs
    refine ⟨h.issueVM, h.issueView, h.text, h.date, ?_, h.action⟩
    refine h.report.place (ReusePool.shown_dequeue hp) (fun _ _ hne => absurd rfl hne)
      ⟨?_, rfl, rfl, rfl⟩
    rw [hview]
    rfl
  | deleteAction =>
    obtain ⟨pool, hp, rfl⟩ := Option.map_eq_some_iff.mp hs
    refine ⟨h.issueVM, h.issueView, h.text, h.date, h.report, ?_⟩
    exact h.action.place (ReusePool.shown_dequeue hp) (fun _ _ hne => absurd rfl hne) rfl

theorem Shows.didEndDisplaying (h : Shows count table issueVC) (row : PersonDetailViewOptions) :
    Shows count (table.didEndDisplaying row) issueVC := by
  cases row with
  | attributeIssue type =>
    exact ⟨h.issueVM, h.issueView, h.text.release type, h.date, h.report, h.action⟩
  | timestamp => exact ⟨h.issueVM, h.issueView, h.text, h.date.release (), h.report, h.action⟩
  | report => exact ⟨h.issueVM, h.issueView, h.text, h.date, h.report.release (), h.action⟩
  | deleteAction => exact ⟨h.issueVM, h.issueView, h.text, h.date, h.report, h.action.release ()⟩

theorem Shows.onValueChanged (h : Shows count table issueVC) {type : AttributeIssueType}
    {text : String} {cell : AttributeIssueTVC} (hc : ShowsText table.issueView type text cell) :
    table.issueVM.map cell.onValueChanged =
      some (IssueVC.onValueChanged type text issueVC.issueVM) := by
  rw [h.issueView] at hc
  rw [h.issueVM, hc.onValueChanged, Option.map_some]

theorem Shows.textFieldDidEndEditing (h : Shows count table issueVC) {type : AttributeIssueType}
    (hs : table.textFieldDidEndEditing type = some next) :
    Shows count next (issueVC.textFieldDidEndEditing type) := by
  obtain ⟨cell, hc, rfl⟩ := Option.map_eq_some_iff.mp hs
  exact ⟨h.onValueChanged (h.text type cell hc), h.issueView, h.text, h.date, h.report, h.action⟩

theorem shows_step (h : Shows count table issueVC) {event : TableEvent}
    (hs : step table event = some next) :
    Shows count next ((IssueVC.machine count).after issueVC (formEvents event)) := by
  cases event with
  | cellForRowAt index cell =>
    rw [step, IssueTable.cellForRowAt, h.issueView_issueVM] at hs
    cases hg : PersonDetailViewOptions.get index with
    | none =>
      rw [hg] at hs
      obtain rfl := Option.some.inj hs
      simpa [formEvents, hg] using h
    | some row =>
      rw [hg] at hs
      simpa [formEvents, hg, IssueVC.machine] using h.configure hs
  | didEndDisplaying row =>
    obtain rfl := Option.some.inj hs
    exact h.didEndDisplaying row
  | textFieldDidChange type text =>
    obtain ⟨cell, hc, rfl⟩ := Option.map_eq_some_iff.mp hs
    have hchanged := (h.text type cell hc).change text
    exact ⟨h.onValueChanged hchanged, h.issueView,
      h.setText (ReusePool.shown_modify_of_shown hc) hchanged, h.date, h.report, h.action⟩
  | textFieldDidEndEditing type => exact h.textFieldDidEndEditing hs
  | textFieldShouldReturn type =>
    obtain ⟨cell, hc, hs⟩ := Option.bind_eq_some_iff.mp hs
    have hended : Shows count { table with issueVM := table.issueVM.map cell.onValueChanged }
        (issueVC.textFieldDidEndEditing type) :=
      h.textFieldDidEndEditing (Option.map_eq_some_iff.mpr ⟨cell, hc, rfl⟩)
    exact hended.textFieldDidEndEditing hs
  | datePickerChanged date =>
    obtain ⟨cell, hc, rfl⟩ := Option.map_eq_some_iff.mp hs
    have hd := h.date () cell hc
    refine ⟨?_, h.issueView, h.text, ?_, h.report, h.action⟩
    · rw [h.issueVM, hd.callback, h.issueView]
      rfl
    · exact h.date.place (ReusePool.shown_modify_of_shown hc) (fun _ _ hne => absurd rfl hne)
        ⟨hd.callback, hd.label, rfl⟩
  | textViewDidChange text =>
    obtain ⟨cell, hc, rfl⟩ := Option.map_eq_some_iff.mp hs
    have hr := h.report () cell hc
    have hchanged : ShowsReport table.issueView text { cell with txtReport := text } :=
      ⟨hr.attributePersonType, hr.callback, hr.label, rfl⟩
    refine ⟨?_, h.issueView, h.text, h.date, ?_, h.action⟩
    · rw [h.issueView] at hchanged
      rw [h.issueVM]
      exact congrArg some (hchanged.onValueChanged issueVC.issueVM)
    · exact h.report.place (ReusePool.shown_modify_of_shown hc) (fun _ _ hne => absurd rfl hne)
        hchanged
  | onActionButton =>
    obtain ⟨cell, -, rfl⟩ := Option.map_eq_some_iff.mp hs
    exact h

theorem shows_outcomes (h : Shows count table issueVC) {event : TableEvent}
    (hs : step table event = some next) :
    table.outcomes event = (IssueVC.machine count).outputs issueVC (formEvents event) := by
  cases event with
  | cellForRowAt index cell =>
    cases hg : PersonDetailViewOptions.get index with
    | none => simp [outcomes, formEvents, hg, Machine.outputs]
    | some row => simp [outcomes, formEvents, hg, outcome, Machine.outputs, IssueVC.machine,
        IssueVC.outcome]
  | onActionButton =>
    obtain ⟨cell, hc, -⟩ := Option.map_eq_some_iff.mp hs
    have hbutton : table.onActionButton = some (issueVC.onSaveAction count) := by
      rw [onActionButton, hc, Option.bind_some, h.action () cell hc, h.issueView, h.issueVM]
      rfl
    simp [outcomes, formEvents, outcome, hbutton, Machine.outputs, IssueVC.machine,
      IssueVC.outcome]
  | _ => rfl

theorem simulates (count : String → Nat) :
    Machine.Simulates step formEvents outcomes (IssueVC.machine count) (Shows count) :=
  ⟨fun h hs => shows_step h hs, fun h hs => shows_outcomes h hs⟩

theorem reused_cells_refine_rows (issueVM : IssueVM) (events : List TableEvent)
    (h : run step events (viewDidLoad count (some issueVM)) = some table) :
    Shows count table ((IssueVC.machine count).after (IssueVC.viewDidLoad issueVM)
      (events.flatMap formEvents)) ∧
    collect step outcomes events (viewDidLoad count (some issueVM)) =
      (IssueVC.machine count).outputs (IssueVC.viewDidLoad issueVM) (events.flatMap formEvents) :=
  (simulates count).run (shows_viewDidLoad issueVM) h

-- one cell serves the name and then the e-mail
def reused : List TableEvent :=
  [.cellForRowAt 0 0, .textFieldDidChange .name "Eve", .didEndDisplaying (.attributeIssue .name),
    .cellForRowAt 2 0, .textFieldDidChange .email "eve@mailinator.com", .cellForRowAt 6 0,
    .onActionButton]

theorem reused_cells_refine_rows_pepito :
    ∃ table, run step reused (viewDidLoad String.length (some (IssueVM.initIssue ⟨0⟩ pepito))) =
      some table ∧
    Shows String.length table ((IssueVC.machine String.length).after
      (IssueVC.viewDidLoad (IssueVM.initIssue ⟨0⟩ pepito)) (reused.flatMap formEvents)) ∧
    collect step outcomes reused
        (viewDidLoad String.length (some (IssueVM.initIssue ⟨0⟩ pepito))) =
      (IssueVC.machine String.length).outputs (IssueVC.viewDidLoad (IssueVM.initIssue ⟨0⟩ pepito))
        (reused.flatMap formEvents) := by
  have hr : (run step reused
      (viewDidLoad String.length (some (IssueVM.initIssue ⟨0⟩ pepito)))).isSome = true := rfl
  obtain ⟨table, ht⟩ := Option.isSome_iff_exists.mp hr
  exact ⟨table, ht, reused_cells_refine_rows _ _ ht⟩

end Runs

end IssueTable

-- a text row is not configured again once it was edited
def KeepsEdit (before after : FormEvent) : Prop :=
  ∀ type text, before = .textFieldDidChange type text → after ≠ .cellForRowAt (.attributeIssue type)

namespace FormHistory

variable {h : FormHistory} {type : AttributeIssueType} {event : FormEvent}
  {events : List FormEvent}

theorem text_setText (type' : AttributeIssueType) (row : TextHistory) :
    (h.setText type' row).text type = if type = type' then row else h.text type :=
  Function.update_apply ..

theorem text_next_cases (h : FormHistory) (event : FormEvent) (type : AttributeIssueType) :
    (∃ text, event = .textFieldDidChange type text ∧
      (h.next event).text type = (h.text type).change text) ∨
    (∀ text, event ≠ .textFieldDidChange type text) ∧
      ((h.next event).text type = h.text type ∨
        (h.next event).text type = (h.text type).endEditing ∨
        event = .cellForRowAt (.attributeIssue type) ∧
          (h.next event).text type = (h.text type).reconfigure) := by
  cases event with
  | textFieldDidChange type' text =>
    rw [next, text_setText]
    split
    · rename_i he
      subst he
      exact .inl ⟨text, rfl, rfl⟩
    · rename_i hne
      refine .inr ⟨fun text' he => hne ?_, .inl rfl⟩
      exact (FormEvent.textFieldDidChange.inj he).1.symm
  | cellForRowAt row =>
    refine .inr ⟨by simp, ?_⟩
    cases row with
    | attributeIssue type' =>
      rw [next, text_setText]
      split
      · rename_i he
        subst he
        exact .inr (.inr ⟨rfl, rfl⟩)
      · exact .inl rfl
    | _ => exact .inl rfl
  | textFieldDidEndEditing type' | textFieldShouldReturn type' =>
    refine .inr ⟨by simp, ?_⟩
    rw [next, text_setText]
    split
    · rename_i he
      subst he
      exact .inr (.inl rfl)
    · exact .inl rfl
  | _ => exact .inr ⟨by simp, .inl rfl⟩

structure Keeps (edited : Prop) (row : TextHistory) : Prop where
  unedited : ¬ edited → row.typed = row.initial
  edited : edited → row.reconfigured = false ∧ row.lost = false

theorem keeps_foldl (issueVM : IssueVM) (hk : events.Pairwise KeepsEdit)
    (type : AttributeIssueType) :
    Keeps (∃ text, .textFieldDidChange type text ∈ events)
      ((events.foldl FormHistory.next (FormHistory.start issueVM)).text type) := by
  induction events using List.reverseRecOn with
  | nil => exact ⟨fun _ => rfl, fun h => by simp at h⟩
  | append_singleton events event ih =>
    obtain ⟨hpre, -, hlast⟩ := List.pairwise_append.mp hk
    have hrow := ih hpre
    rw [List.foldl_append, List.foldl_cons, List.foldl_nil]
    rcases text_next_cases (events.foldl FormHistory.next (FormHistory.start issueVM)) event type
      with ⟨text, rfl, hn⟩ | ⟨hne, hn⟩
    · rw [hn]
      exact ⟨fun he => absurd ⟨text, by simp⟩ he, fun _ => ⟨rfl, rfl⟩⟩
    · have hedited : (∃ text, .textFieldDidChange type text ∈ events ++ [event]) ↔
          ∃ text, .textFieldDidChange type text ∈ events := by
        simp [fun text => (hne text).symm]
      rw [hedited]
      rcases hn with hn | hn | ⟨rfl, hn⟩
      · rwa [hn]
      · rw [hn]
        exact ⟨hrow.unedited, fun he => ⟨(hrow.edited he).1, (hrow.edited he).1⟩⟩
      · rw [hn]
        refine ⟨hrow.unedited, fun ⟨text, hm⟩ => ?_⟩
        exact absurd rfl (hlast _ hm _ (List.mem_singleton.mpr rfl) type text rfl)

theorem savesTyped_of_pairwise (count : String → Nat) (issueVM : IssueVM)
    (hk : events.Pairwise KeepsEdit) :
    SavesTyped count (events.foldl FormHistory.next (FormHistory.start issueVM)) := by
  refine .inl fun type hlost => ?_
  have hrow := keeps_foldl issueVM hk type
  refine hrow.unedited fun he => ?_
  rw [(hrow.edited he).2] at hlost
  cases hlost

end FormHistory

namespace IssueTable

theorem reused_cells_save_typed (count : String → Nat) (now : Date) (issue : Issue)
    (events : List TableEvent) (hk : (events.flatMap formEvents).Pairwise KeepsEdit)
    {table : IssueTable}
    (h : run step events (viewDidLoad count (some (IssueVM.initIssue now issue))) = some table) :
    collect step outcomes events (viewDidLoad count (some (IssueVM.initIssue now issue))) =
      (FormView.machine count).outputs (IssueUI.initIssue now issue)
        (events.flatMap formEvents) := by
  have hu := FormView.after_typed count (FormHistory.start (IssueVM.initIssue now issue))
  have hd := displays_after count (displays_viewDidLoad (IssueVM.initIssue now issue))
  rw [((simulates count).run (shows_viewDidLoad (IssueVM.initIssue now issue)) h).2,
    Machine.outputs_eq_iff]
  intro pre event post he
  cases event with
  | save =>
    have hpre : pre.Pairwise KeepsEdit := (List.pairwise_append.mp (he ▸ hk)).1
    have hs := (hd pre).onSaveAction_eq_iff.mpr
      (FormHistory.savesTyped_of_pairwise count (IssueVM.initIssue now issue) hpre)
    rw [← hu] at hs
    exact congrArg some hs
  | _ => rfl

theorem reused_cells_save_typed_pepito :
    ∃ table, run step reused (viewDidLoad String.length (some (IssueVM.initIssue ⟨0⟩ pepito))) =
      some table ∧
    collect step outcomes reused
        (viewDidLoad String.length (some (IssueVM.initIssue ⟨0⟩ pepito))) =
      (FormView.machine String.length).outputs (IssueUI.initIssue ⟨0⟩ pepito)
        (reused.flatMap formEvents) := by
  have hk : (reused.flatMap formEvents).Pairwise KeepsEdit := by
    simp [reused, formEvents, PersonDetailViewOptions.get,
      PersonDetailViewOptions.allValuesEditMode, KeepsEdit]
  have hr : (run step reused
      (viewDidLoad String.length (some (IssueVM.initIssue ⟨0⟩ pepito)))).isSome = true := rfl
  obtain ⟨table, ht⟩ := Option.isSome_iff_exists.mp hr
  exact ⟨table, ht, reused_cells_save_typed _ _ _ _ hk ht⟩

end IssueTable

end Seco
