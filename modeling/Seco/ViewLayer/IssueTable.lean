import Seco.General.ReusePools
import Seco.ViewLayer.FormEquivalence

namespace Seco

-- `AttributeIssueType` with the form that each case carries
inductive AttributePersonType where
  | name (issueVM : Option IssueVM)
  | surename (issueVM : Option IssueVM)
  | email (issueVM : Option IssueVM)
  | phone (issueVM : Option IssueVM)
  | timestamp (issueVM : Option IssueVM)
  | report (issueVM : Option IssueVM)

namespace AttributePersonType

def getText : AttributePersonType → String
  | .name _ => "issue_name"
  | .surename _ => "issue_surename"
  | .email _ => "issue_email"
  | .phone _ => "issue_phone"
  | .timestamp _ => "issue_timestamp"
  | .report _ => "issue_report"

def getValue : AttributePersonType → String
  | .name issueVM => (issueVM.map IssueVM.name).getD ""
  | .surename issueVM => (issueVM.map IssueVM.surename).getD ""
  | .email issueVM => (issueVM.map IssueVM.email).getD ""
  | .phone issueVM => (issueVM.map IssueVM.phone).getD ""
  | .timestamp _ => ""
  | .report issueVM => (issueVM.map IssueVM.report).getD ""

def getDate : AttributePersonType → Option Date
  | .timestamp issueVM => issueVM.map IssueVM.timestamp
  | _ => none

end AttributePersonType

-- the callbacks are closures that assign to a field of the controller's form
structure AttributeCallbacks where
  onEmailValueChanged : String → IssueVM → IssueVM := fun _ => id
  onNameValueChanged : String → IssueVM → IssueVM := fun _ => id
  onSurenameValueChanged : String → IssueVM → IssueVM := fun _ => id
  onPhoneValueChanged : String → IssueVM → IssueVM := fun _ => id

structure IssueTableView extends AttributeCallbacks where
  onTimestampValueChanged : Date → IssueVM → IssueVM := fun _ => id
  onReportValueChanged : String → IssueVM → IssueVM := fun _ => id
  onSaveAction : Option IssueVM → Option Outcome := fun _ => none
  issueVM : Option IssueVM := none

structure AttributeIssueTVC extends AttributeCallbacks where
  txtAttributeValue : String := ""
  lblAttributeName : String := ""
  attributePersonType : Option AttributePersonType := none

structure DateSelectorTVC where
  lblAttributeName : String := ""
  pckTimeStamp : Date := ⟨0⟩
  onTimestampValueChanged : Date → IssueVM → IssueVM := fun _ => id
  attributePersonType : Option AttributePersonType := none

structure ReportTVC where
  lblAttributeName : String := ""
  txtReport : String := ""
  onReportValueChanged : String → IssueVM → IssueVM := fun _ => id
  attributePersonType : Option AttributePersonType := none

structure ActionIssueTVC where
  onSaveAction : IssueTableView → Option IssueVM → Option Outcome := fun _ _ => none

def AttributePersonType.onValueChanged (attributePersonTVC : AttributeIssueTVC) (value : String) :
    AttributePersonType → IssueVM → IssueVM
  | .name _ => attributePersonTVC.onNameValueChanged value
  | .surename _ => attributePersonTVC.onSurenameValueChanged value
  | .email _ => attributePersonTVC.onEmailValueChanged value
  | .phone _ => attributePersonTVC.onPhoneValueChanged value
  | .timestamp _ => id
  | .report _ => id

def AttributePersonType.onReportValueChanged (reportTVC : ReportTVC) (value : String) :
    AttributePersonType → IssueVM → IssueVM
  | .report _ => reportTVC.onReportValueChanged value
  | _ => id

def AttributeIssueTVC.set (attributePersonType : AttributePersonType) (cell : AttributeIssueTVC) :
    AttributeIssueTVC :=
  { cell with
    attributePersonType := some attributePersonType
    lblAttributeName := attributePersonType.getText
    txtAttributeValue := attributePersonType.getValue }

def AttributeIssueTVC.onValueChanged (cell : AttributeIssueTVC) : IssueVM → IssueVM :=
  match cell.attributePersonType with
  | some attributePersonType => attributePersonType.onValueChanged cell cell.txtAttributeValue
  | none => id

def DateSelectorTVC.set (attributePersonType : AttributePersonType) (cell : DateSelectorTVC) :
    DateSelectorTVC :=
  { cell with
    attributePersonType := some attributePersonType
    lblAttributeName := attributePersonType.getText
    pckTimeStamp := attributePersonType.getDate.getD cell.pckTimeStamp }

def ReportTVC.set (attributePersonType : AttributePersonType) (cell : ReportTVC) : ReportTVC :=
  { cell with
    attributePersonType := some attributePersonType
    lblAttributeName := attributePersonType.getText
    txtReport := attributePersonType.getValue }

def ReportTVC.onValueChanged (cell : ReportTVC) : IssueVM → IssueVM :=
  match cell.attributePersonType with
  | some attributePersonType => attributePersonType.onReportValueChanged cell cell.txtReport
  | none => id

instance : Fintype AttributeIssueType where
  elems := {.name, .surename, .email, .phone}
  complete type := by cases type <;> decide

namespace PersonDetailViewOptions

def allValuesEditMode : List PersonDetailViewOptions :=
  [.attributeIssue .name, .attributeIssue .surename, .attributeIssue .email,
    .attributeIssue .phone, .timestamp, .report, .deleteAction]

def get (index : Nat) : Option PersonDetailViewOptions := allValuesEditMode[index]?

def getAttributePersonType (issueVM : Option IssueVM) :
    PersonDetailViewOptions → Option AttributePersonType
  | .attributeIssue .name => some (.name issueVM)
  | .attributeIssue .surename => some (.surename issueVM)
  | .attributeIssue .email => some (.email issueVM)
  | .attributeIssue .phone => some (.phone issueVM)
  | .timestamp => some (.timestamp issueVM)
  | .report => some (.report issueVM)
  | .deleteAction => none

end PersonDetailViewOptions

-- a pool for each reuse identifier
structure IssueTable where
  issueVM : Option IssueVM
  issueView : IssueTableView := {}
  attributeIssueTVC : ReusePool AttributeIssueType AttributeIssueTVC := .fresh {}
  dateSelectorTVC : ReusePool Unit DateSelectorTVC := .fresh {}
  reportTVC : ReusePool Unit ReportTVC := .fresh {}
  actionIssueTVC : ReusePool Unit ActionIssueTVC := .fresh {}

inductive TableEvent where
  | cellForRowAt (index cell : Nat)
  | didEndDisplaying (row : PersonDetailViewOptions)
  | textFieldDidChange (type : AttributeIssueType) (text : String)
  | textFieldDidEndEditing (type : AttributeIssueType)
  | textFieldShouldReturn (type : AttributeIssueType)
  | datePickerChanged (date : Date)
  | textViewDidChange (text : String)
  | onActionButton
  deriving DecidableEq

namespace IssueTable

def configure (row : PersonDetailViewOptions) (cell : Nat) (issueVM : IssueVM)
    (table : IssueTable) : Option IssueTable :=
  let view := table.issueView
  match row, row.getAttributePersonType (some issueVM) with
  | .attributeIssue type, some attributePersonType =>
    (table.attributeIssueTVC.dequeue type cell fun attributeIssueTVC =>
      { attributeIssueTVC.set attributePersonType with
        toAttributeCallbacks := view.toAttributeCallbacks }).map fun pool =>
      { table with attributeIssueTVC := pool }
  | .timestamp, some attributePersonType =>
    (table.dateSelectorTVC.dequeue () cell fun dateSelectorTVC =>
      { dateSelectorTVC with
        onTimestampValueChanged := view.onTimestampValueChanged }.set attributePersonType).map
      fun pool => { table with dateSelectorTVC := pool }
  | .report, some attributePersonType =>
    (table.reportTVC.dequeue () cell fun reportTVC =>
      { reportTVC with
        onReportValueChanged := view.onReportValueChanged }.set attributePersonType).map
      fun pool => { table with reportTVC := pool }
  | .deleteAction, _ =>
    (table.actionIssueTVC.dequeue () cell fun _ =>
      ⟨fun personDetailView => personDetailView.onSaveAction⟩).map fun pool =>
      { table with actionIssueTVC := pool }
  | _, none => some table

def cellForRowAt (index cell : Nat) (table : IssueTable) : Option IssueTable :=
  match PersonDetailViewOptions.get index, table.issueView.issueVM with
  | some row, some issueVM => table.configure row cell issueVM
  | _, _ => some table

def didEndDisplaying (row : PersonDetailViewOptions) (table : IssueTable) : IssueTable :=
  match row with
  | .attributeIssue type =>
    { table with attributeIssueTVC := table.attributeIssueTVC.release type }
  | .timestamp => { table with dateSelectorTVC := table.dateSelectorTVC.release () }
  | .report => { table with reportTVC := table.reportTVC.release () }
  | .deleteAction => { table with actionIssueTVC := table.actionIssueTVC.release () }

-- the user acts on the cell that the table shows at the row
def textFieldDidChange (type : AttributeIssueType) (text : String) (table : IssueTable) :
    Option IssueTable :=
  (table.attributeIssueTVC.shown type).map fun cell =>
    let changed := { cell with txtAttributeValue := text }
    { table with
      attributeIssueTVC := table.attributeIssueTVC.modify type fun _ => changed
      issueVM := table.issueVM.map changed.onValueChanged }

def textFieldDidEndEditing (type : AttributeIssueType) (table : IssueTable) : Option IssueTable :=
  (table.attributeIssueTVC.shown type).map fun cell =>
    { table with issueVM := table.issueVM.map cell.onValueChanged }

def textFieldShouldReturn (type : AttributeIssueType) (table : IssueTable) : Option IssueTable :=
  (table.attributeIssueTVC.shown type).bind fun cell =>
    textFieldDidEndEditing type { table with issueVM := table.issueVM.map cell.onValueChanged }

def datePickerChanged (date : Date) (table : IssueTable) : Option IssueTable :=
  (table.dateSelectorTVC.shown ()).map fun cell =>
    { table with
      dateSelectorTVC := table.dateSelectorTVC.modify () fun _ => { cell with pckTimeStamp := date }
      issueVM := table.issueVM.map (cell.onTimestampValueChanged date) }

def textViewDidChange (text : String) (table : IssueTable) : Option IssueTable :=
  (table.reportTVC.shown ()).map fun cell =>
    let changed := { cell with txtReport := text }
    { table with
      reportTVC := table.reportTVC.modify () fun _ => changed
      issueVM := table.issueVM.map changed.onValueChanged }

def onActionButton (table : IssueTable) : Option Outcome :=
  (table.actionIssueTVC.shown ()).bind fun cell =>
    cell.onSaveAction table.issueView table.issueVM

def step (table : IssueTable) : TableEvent → Option IssueTable
  | .cellForRowAt index cell => table.cellForRowAt index cell
  | .didEndDisplaying row => some (table.didEndDisplaying row)
  | .textFieldDidChange type text => table.textFieldDidChange type text
  | .textFieldDidEndEditing type => table.textFieldDidEndEditing type
  | .textFieldShouldReturn type => table.textFieldShouldReturn type
  | .datePickerChanged date => table.datePickerChanged date
  | .textViewDidChange text => table.textViewDidChange text
  | .onActionButton => (table.actionIssueTVC.shown ()).map fun _ => table

def outcome (table : IssueTable) : TableEvent → Option Outcome
  | .onActionButton => table.onActionButton
  | _ => none

section SetupViewController

variable (count : String → Nat)

def onSaveAction : Option IssueVM → Outcome
  | some issueVM =>
    if IssueVC.isFormProperlyFilled count issueVM then .save (Issue.initIssueVM issueVM)
    else .alert
  | none => .alert

def setupViewController (issueVM : Option IssueVM) : IssueTableView where
  issueVM := issueVM
  onNameValueChanged value issueVM := { issueVM with name := value }
  onSurenameValueChanged value issueVM := { issueVM with surename := value }
  onEmailValueChanged value issueVM := { issueVM with email := value }
  onTimestampValueChanged value issueVM := { issueVM with timestamp := value }
  onReportValueChanged value issueVM := { issueVM with report := value }
  onPhoneValueChanged value issueVM := { issueVM with phone := value }
  onSaveAction issueVM := some (onSaveAction count issueVM)

def viewDidLoad (issueVM : Option IssueVM) : IssueTable where
  issueVM := issueVM
  issueView := setupViewController count issueVM

end SetupViewController

def formEvents : TableEvent → List FormEvent
  | .cellForRowAt index _ => (PersonDetailViewOptions.get index).toList.map .cellForRowAt
  | .didEndDisplaying _ => []
  | .textFieldDidChange type text => [.textFieldDidChange type text]
  | .textFieldDidEndEditing type => [.textFieldDidEndEditing type]
  | .textFieldShouldReturn type => [.textFieldShouldReturn type]
  | .datePickerChanged date => [.datePickerChanged date]
  | .textViewDidChange text => [.textViewDidChange text]
  | .onActionButton => [.save]

def outcomes (table : IssueTable) (event : TableEvent) : List (Option Outcome) :=
  (formEvents event).map fun _ => table.outcome event

end IssueTable

end Seco
