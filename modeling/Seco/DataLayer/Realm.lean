import Seco.DataLayer.Model
import Seco.General.KeyedRows
import Seco.General.Program

namespace Seco

abbrev Thread := Nat

inductive Raise where
  | nilRealm
  | incorrectThread
  | alreadyInTransaction
  | outsideTransaction
  | foreignObject
  | duplicateKey
  | releasedInTransaction
  deriving DecidableEq

structure Realm where
  id : Nat
  thread : Thread
  transaction : Option (List IssueDB)
  deriving DecidableEq

structure World (σ : Type) where
  file : List IssueDB
  opened : Nat
  thread : Thread
  realm : Option Realm
  applicationIconBadgeNumber : Int
  client : σ

abbrev App (σ α : Type) := Program (World σ) Raise α

structure Call where
  thread : Thread
  opens : Bool
  commits : Bool

structure ManagedIssueDB where
  realm : Nat
  issueDB : IssueDB
  deriving DecidableEq

namespace Realm

variable {σ : Type}

def rows (realm : Realm) (file : List IssueDB) : List IssueDB := realm.transaction.getD file

-- dereferences `self.realm!`, then `Realm::verify_thread`
def current (c : Call) : App σ Realm := do
  let w ← get
  match w.realm with
  | none => throw .nilRealm
  | some realm => if realm.thread = c.thread then pure realm else throw .incorrectThread

-- a handle deallocated in a transaction cancels it, on the thread that lets go of it
def release (c : Call) : Option Realm → App σ Unit
  | none => pure ()
  | some realm =>
    if realm.transaction.isSome ∧ realm.thread ≠ c.thread then throw .releasedInTransaction
    else pure ()

def objects (c : Call) : App σ (List IssueDB) := do
  let realm ← current c
  let w ← get
  pure (realm.rows w.file)

def setTransaction (realm : Realm) (rows : Option (List IssueDB)) : App σ Unit :=
  modify fun w => { w with realm := some { realm with transaction := rows } }

def beginWrite (c : Call) : App σ Unit := do
  let realm ← current c
  match realm.transaction with
  | some _ => throw .alreadyInTransaction
  | none => do
    let w ← get
    setTransaction realm (some w.file)

-- no `verify_thread` here
def isInWriteTransaction : App σ Bool := do
  let w ← get
  match w.realm with
  | none => throw .nilRealm
  | some realm => pure realm.transaction.isSome

-- `false` is the thrown error: the handle then stays in its transaction
def commitWrite (c : Call) : App σ Bool := do
  let realm ← current c
  match realm.transaction with
  | none => throw .outsideTransaction
  | some rows =>
    if c.commits then do
      modify fun w => { w with file := rows }
      setTransaction realm none
      pure true
    else pure false

def write (c : Call) (block : App σ Unit) : App σ Bool := do
  beginWrite c
  block
  if ← isInWriteTransaction then commitWrite c else pure true

def add (c : Call) (issueDB : IssueDB) : App σ Unit := do
  let realm ← current c
  match realm.transaction with
  | none => throw .outsideTransaction
  | some rows =>
    if (KeyedRows.lookup IssueDB.route issueDB.route rows).isSome then throw .duplicateKey
    else setTransaction realm (some (rows ++ [issueDB]))

def deleteAll (c : Call) : App σ Unit := do
  let realm ← current c
  match realm.transaction with
  | none => throw .outsideTransaction
  | some _ => setTransaction realm (some [])

def assign (c : Call) (object : ManagedIssueDB) (f : IssueDB → IssueDB) : App σ Unit := do
  let realm ← current c
  if realm.id = object.realm then
    match realm.transaction with
    | none => throw .outsideTransaction
    | some rows =>
      setTransaction realm (some (KeyedRows.modify IssueDB.route object.issueDB.route f rows))
  else throw .foreignObject

end Realm

end Seco
