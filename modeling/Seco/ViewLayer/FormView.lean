import Seco.DomainLayer.RoutesInteractor
import Seco.General.RegularExpressions
import Seco.ViewLayer.RoutesPresenter

namespace Seco

open Program RegularExpression

inductive Block where
  | fetchedIssue (route : String) (issue : Option Issue)
  | dismiss (form : Nat)
  deriving DecidableEq

structure Main where
  view : RoutesVC := {}
  queue : List Block := []
  deriving DecidableEq

namespace Main

def async (block : Block) (main : Main) : Main := { main with queue := main.queue ++ [block] }

def presentActivityIndicator (main : Main) : Main :=
  { main with view := main.view.presentActivityIndicator }

@[simp] theorem async_queue (block : Block) (main : Main) :
    (main.async block).queue = main.queue ++ [block] := rfl

@[simp] theorem presentActivityIndicator_queue (main : Main) :
    main.presentActivityIndicator.queue = main.queue := rfl

end Main

def RoutesPresenter.fetchIssue (c : Call) (route : String) : App Main Unit := do
  onClient Main.presentActivityIndicator
  RoutesInteractor.getIssue c route fun issue => onClient (Main.async (.fetchedIssue route issue))

-- `presentActivityIndicator` and `removeActivityIndicator` of `FormView` only print
def IssuePresenterNew.save (c : Call) (form : Nat) (issue : Issue) : App Main Unit :=
  RoutesInteractor.create c issue (onClient (Main.async (.dismiss form)))

namespace FormView

def chars (first last : Char) : List Char :=
  (List.range' first.toNat (last.toNat + 1 - first.toNat)).map Char.ofNat

def alphabetic : List Char := chars 'A' 'Z' ++ chars 'a' 'z'

def localPart : List Char :=
  chars 'A' 'Z' ++ chars '0' '9' ++ chars 'a' 'z' ++ ['.', '_', '%', '+', '-']

def domainPart : List Char := chars 'A' 'Z' ++ chars 'a' 'z' ++ chars '0' '9' ++ ['.', '-']

-- [A-Z0-9a-z._%+-]+@[A-Za-z0-9.-]+\.[A-Za-z]{2,64}
def emailRegEx : RegularExpression Char :=
  oneOrMore (oneOf localPart) * char '@' * oneOrMore (oneOf domainPart) * char '.' *
    between 2 64 (oneOf alphabetic)

def isValidEmail (email : String) : Bool := emailRegEx.rmatch email.toList

structure EmailParts (email pre domain top : List Char) : Prop where
  eq : email = pre ++ '@' :: domain ++ '.' :: top
  pre : pre ≠ [] ∧ ∀ a ∈ pre, a ∈ localPart
  domain : domain ≠ [] ∧ ∀ a ∈ domain, a ∈ domainPart
  top : 2 ≤ top.length ∧ top.length ≤ 64 ∧ ∀ a ∈ top, a ∈ alphabetic

theorem isValidEmail_iff (email : String) :
    isValidEmail email = true ↔ ∃ pre domain top, EmailParts email.toList pre domain top := by
  rw [isValidEmail, rmatch_iff_matches', emailRegEx]
  simp only [matches'_mul, Language.mem_mul, mem_oneOrMore_oneOf,
    mem_between_oneOf (show 2 ≤ 64 by decide), matches'_char]
  constructor
  · rintro ⟨_, ⟨_, ⟨_, ⟨pre, hp, _, rfl, rfl⟩, domain, hd, rfl⟩, _, rfl, rfl⟩, top, ht, he⟩
    exact ⟨pre, domain, top, by simp [← he], hp, hd, ht⟩
  · rintro ⟨pre, domain, top, he, hp, hd, ht⟩
    exact ⟨_, ⟨_, ⟨_, ⟨pre, hp, _, rfl, rfl⟩, domain, hd, rfl⟩, _, rfl, rfl⟩, top, ht, by simp [he]⟩

theorem not_isEmpty_of_isValidEmail {email : String} (h : isValidEmail email = true) :
    email.isEmpty = false := by
  obtain ⟨pre, domain, top, he, -⟩ := (isValidEmail_iff email).mp h
  by_contra hn
  have : email = "" := by simpa using hn
  simp [this] at he

section IsFormProperlyFilled

-- `count` is the number of grapheme clusters of a Swift string
variable (count : String → Nat)

def isFormProperlyFilled (issueUI : IssueUI) : Bool :=
  if ¬ (issueUI.report.isEmpty ∨ count issueUI.report ≤ 200) then false
  else if ¬ isValidEmail issueUI.email then false
  else !issueUI.name.isEmpty && !issueUI.surename.isEmpty && !issueUI.email.isEmpty

def action (c : Call) (form : Nat) (issueUI : IssueUI) : App Main Bool := do
  if isFormProperlyFilled count issueUI then do
    IssuePresenterNew.save c form (Issue.initIssueUI issueUI)
    pure false
  else pure true

end IsFormProperlyFilled

def previews (timestamp : Date) : IssueUI where
  route := "asdf"
  name := "Pepito"
  surename := "Grillo"
  email := "pegri@mailinator.com"
  timestamp := timestamp
  report := "blah, blah"
  phone := "123456789"

theorem forall_mem_of_all {cs xs : List Char} (h : (xs.all fun a => decide (a ∈ cs)) = true) :
    ∀ a ∈ xs, a ∈ cs := by simpa using h

theorem isValidEmail_previews : isValidEmail "pegri@mailinator.com" = true :=
  (isValidEmail_iff _).mpr ⟨"pegri".toList, "mailinator".toList, "com".toList, by decide,
    ⟨by decide, forall_mem_of_all (by decide)⟩, ⟨by decide, forall_mem_of_all (by decide)⟩,
    by decide, by decide, forall_mem_of_all (by decide)⟩

theorem isFormProperlyFilled_previews (timestamp : Date) :
    isFormProperlyFilled String.length (previews timestamp) = true := by
  have hr : "blah, blah".length ≤ 200 := by decide
  simp [isFormProperlyFilled, previews, isValidEmail_previews, hr]

end FormView

section Runs

variable {count : String → Nat} {c : Call} {id : Nat} {w : World Main}

def World.saved (w : World Main) (form : Nat) (issue : Issue) : World Main :=
  w.stored (put (IssueDB.initIssue issue) w.file) (put (IssueDB.initIssue issue) w.file).length
    (w.client.async (.dismiss form))

theorem action_run (h : Held c id none w) (hc : c.commits = true) {form : Nat}
    {issueUI : IssueUI} (hv : FormView.isFormProperlyFilled count issueUI = true) :
    Returns (FormView.action count c form issueUI) w false
      (w.saved form (Issue.initIssueUI issueUI)) := by
  simp only [Returns, FormView.action, hv, ↓reduceIte, IssuePresenterNew.save, StateT.run_bind,
    interactor_create_commits h hc]
  rfl

theorem action_rejects {form : Nat} {issueUI : IssueUI}
    (hv : FormView.isFormProperlyFilled count issueUI = false) :
    Returns (FormView.action count c form issueUI) w true w := by
  simp [Returns, FormView.action, hv]

def World.fetching (w : World Main) (route : String) : World Main :=
  { w with client :=
    w.client.presentActivityIndicator.async (.fetchedIssue route (Seco.stored w.file route)) }

theorem fetchIssue_run (h : Held c id none w) (route : String) :
    Returns (RoutesPresenter.fetchIssue c route) w () (w.fetching route) := by
  have hv : Held c id none { w with client := w.client.presentActivityIndicator } :=
    ⟨h.thread, h.realm⟩
  refine returns_bind_iff.mpr ⟨(), _, rfl, ?_⟩
  exact (dataManager_getIssue_run hv route _).trans rfl

end Runs

end Seco
