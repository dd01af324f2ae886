import Seco.ViewLayer.FormView

namespace Seco

structure IssueVM where
  route : String
  name : String
  surename : String
  email : String
  timestamp : Date
  report : String
  phone : String
  deriving DecidableEq

def IssueVM.initIssue (now : Date) (issue : Issue) : IssueVM where
  route := issue.route
  name := issue.name
  surename := issue.surename
  email := issue.email
  timestamp := if issue.timestamp < 0 then now else ⟨issue.timestamp⟩
  report := issue.report
  phone := issue.phone

def Issue.initIssueVM (issueVM : IssueVM) : Issue where
  route := issueVM.route
  name := issueVM.name
  surename := issueVM.surename
  email := issueVM.email
  timestamp := issueVM.timestamp.timeIntervalSince1970
  report := issueVM.report
  phone := issueVM.phone

inductive AttributeIssueType where
  | name
  | surename
  | email
  | phone
  deriving DecidableEq

def AttributeIssueType.getValue : AttributeIssueType → IssueVM → String
  | .name, issueVM => issueVM.name
  | .surename, issueVM => issueVM.surename
  | .email, issueVM => issueVM.email
  | .phone, issueVM => issueVM.phone

inductive PersonDetailViewOptions where
  | attributeIssue (type : AttributeIssueType)
  | timestamp
  | report
  | deleteAction
  deriving DecidableEq

inductive FormEvent where
  | textFieldDidChange (type : AttributeIssueType) (text : String)
  | textViewDidChange (text : String)
  | datePickerChanged (date : Date)
  | cellForRowAt (row : PersonDetailViewOptions)
  | textFieldDidEndEditing (type : AttributeIssueType)
  | textFieldShouldReturn (type : AttributeIssueType)
  | save
  deriving DecidableEq

inductive Outcome where
  | save (issue : Issue)
  | alert
  deriving DecidableEq

structure IssueView where
  issueVM : IssueVM
  txtAttributeValue : AttributeIssueType → String
  pckTimeStamp : Date
  txtReport : String

structure IssueVC where
  issueVM : IssueVM
  issueView : IssueView

namespace IssueView

def set (issueVM : IssueVM) : IssueView where
  issueVM := issueVM
  txtAttributeValue type := type.getValue issueVM
  pckTimeStamp := issueVM.timestamp
  txtReport := issueVM.report

def setText (type : AttributeIssueType) (text : String) (issueView : IssueView) : IssueView :=
  { issueView with txtAttributeValue := Function.update issueView.txtAttributeValue type text }

def cellForRowAt (row : PersonDetailViewOptions) (issueView : IssueView) : IssueView :=
  match row with
  | .attributeIssue type => issueView.setText type (type.getValue issueView.issueVM)
  | .timestamp => { issueView with pckTimeStamp := issueView.issueVM.timestamp }
  | .report => { issueView with txtReport := issueView.issueVM.report }
  | .deleteAction => issueView

end IssueView

namespace IssueVC

def viewDidLoad (issueVM : IssueVM) : IssueVC where
  issueVM := issueVM
  issueView := IssueView.set issueVM

def onValueChanged (type : AttributeIssueType) (value : String) (issueVM : IssueVM) : IssueVM :=
  match type with
  | .name => { issueVM with name := value }
  | .surename => { issueVM with surename := value }
  | .email => { issueVM with email := value }
  | .phone => { issueVM with phone := value }

def textFieldDidChange (type : AttributeIssueType) (text : String) (issueVC : IssueVC) :
    IssueVC where
  issueVM := onValueChanged type text issueVC.issueVM
  issueView := issueVC.issueView.setText type text

def textViewDidChange (text : String) (issueVC : IssueVC) : IssueVC where
  issueVM := { issueVC.issueVM with report := text }
  issueView := { issueVC.issueView with txtReport := text }

def datePickerChanged (date : Date) (issueVC : IssueVC) : IssueVC where
  issueVM := { issueVC.issueVM with timestamp := date }
  issueView := { issueVC.issueView with pckTimeStamp := date }

def textFieldDidEndEditing (type : AttributeIssueType) (issueVC : IssueVC) : IssueVC where
  issueVM := onValueChanged type (issueVC.issueView.txtAttributeValue type) issueVC.issueVM
  issueView := issueVC.issueView

-- `endEditing(true)` then ends the editing of the same text field
def textFieldShouldReturn (type : AttributeIssueType) (issueVC : IssueVC) : IssueVC :=
  textFieldDidEndEditing type
    ⟨onValueChanged type (issueVC.issueView.txtAttributeValue type) issueVC.issueVM,
      issueVC.issueView⟩

def next (issueVC : IssueVC) : FormEvent → IssueVC
  | .textFieldDidChange type text => issueVC.textFieldDidChange type text
  | .textViewDidChange text => issueVC.textViewDidChange text
  | .datePickerChanged date => issueVC.datePickerChanged date
  | .cellForRowAt row => { issueVC with issueView := issueVC.issueView.cellForRowAt row }
  | .textFieldDidEndEditing type => issueVC.textFieldDidEndEditing type
  | .textFieldShouldReturn type => issueVC.textFieldShouldReturn type
  | .save => issueVC

-- [A-Z0-9a-z._%+-]+@[A-Za-z0-9.-]+\.[A-Za-z]{2,64}
def isValidEmail (email : String) : Bool := FormView.emailRegEx.rmatch email.toList

variable (count : String → Nat)

def isFormProperlyFilled (issueVM : IssueVM) : Bool :=
  if ¬ (issueVM.report.isEmpty ∨ count issueVM.report ≤ 200) then false
  else if ¬ isValidEmail issueVM.email then false
  else !issueVM.name.isEmpty && !issueVM.surename.isEmpty && !issueVM.email.isEmpty

def onSaveAction (issueVC : IssueVC) : Outcome :=
  if isFormProperlyFilled count issueVC.issueVM then .save (Issue.initIssueVM issueVC.issueVM)
  else .alert

def outcome (issueVC : IssueVC) : FormEvent → Option Outcome
  | .save => some (issueVC.onSaveAction count)
  | _ => none

end IssueVC

namespace FormView

def next (issueUI : IssueUI) : FormEvent → IssueUI
  | .textFieldDidChange .name text => { issueUI with name := text }
  | .textFieldDidChange .surename text => { issueUI with surename := text }
  | .textFieldDidChange .email text => { issueUI with email := text }
  | .textFieldDidChange .phone text => { issueUI with phone := text }
  | .textViewDidChange text => { issueUI with report := text }
  | .datePickerChanged date => { issueUI with timestamp := date }
  | _ => issueUI

variable (count : String → Nat)

def onAction (issueUI : IssueUI) : Outcome :=
  if isFormProperlyFilled count issueUI then .save (Issue.initIssueUI issueUI) else .alert

def outcome (issueUI : IssueUI) : FormEvent → Option Outcome
  | .save => some (onAction count issueUI)
  | _ => none

theorem action_eq (c : Call) (form : Nat) (issueUI : IssueUI) :
    action count c form issueUI = match onAction count issueUI with
      | .save issue => do
        IssuePresenterNew.save c form issue
        pure false
      | .alert => pure true := by
  unfold action onAction
  split <;> rfl

end FormView

end Seco
