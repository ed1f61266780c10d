import Mathlib.Data.Option.Basic

/-!
# A connection to a transactional store

A connection sees the committed data and, inside a transaction, its own pending version of it. In
autocommit mode every write is committed at once.
-/

namespace Sql

structure Connection (Data : Type) where
  committed : Data
  pending : Option Data := none
  autocommit : Bool := true

namespace Connection

variable {Data : Type} (c : Connection Data)

def view : Data := c.pending.getD c.committed

def write (data : Data) : Connection Data :=
  if c.autocommit then { c with committed := data } else { c with pending := some data }

def commit : Connection Data := { c with committed := c.view, pending := none }

def rollback : Connection Data := { c with pending := none }

def setAutocommit (on : Bool) : Connection Data :=
  if on then { c.commit with autocommit := true } else { c with autocommit := false }

structure Clean : Prop where
  autocommit : c.autocommit = true
  closed : c.pending = none

variable {c}

theorem write_of_off (hoff : c.autocommit = false) (data : Data) :
    c.write data = ⟨c.committed, some data, false⟩ := by
  rw [write, hoff, if_neg Bool.false_ne_true]

@[simp]
theorem clean_setAutocommit : (c.setAutocommit true).Clean := ⟨rfl, rfl⟩

@[simp]
theorem committed_setAutocommit : (c.setAutocommit true).committed = c.view := rfl

@[simp]
theorem committed_rollback : c.rollback.committed = c.committed := rfl

@[simp]
theorem view_rollback : c.rollback.view = c.committed := rfl

end Connection

inductive CommitOutcome where
  | done
  | undone
  | stillOpen
  deriving DecidableEq, Repr

end Sql
