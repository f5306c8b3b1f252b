import Mathlib

/-!
# Connections with an authorizer

A connection compiles the text of a statement, asks its authorizer for every request the statement
makes, and keeps what it compiled under the exact text; it runs what it kept without asking again.

* `Engine`, `Engine.Documented`: what SQLite makes of a text, and what its requests say of it.
* `Connection.execute`: `execute` of the `sqlite3` module.
* `Connection.Asked`: every kept statement was asked for when it was compiled.
* `execute_rows`: a statement whose requests change nothing leaves the rows, unless it rolls back.
-/

namespace Py.Sqlite

/-! ### The engine -/

/-- The codes of the authorizer's requests. -/
inductive Action where
  | createIndex
  | createTable
  | createTempIndex
  | createTempTable
  | createTempTrigger
  | createTempView
  | createTrigger
  | createView
  | delete
  | dropIndex
  | dropTable
  | dropTempIndex
  | dropTempTable
  | dropTempTrigger
  | dropTempView
  | dropTrigger
  | dropView
  | insert
  | pragma
  | read
  | select
  | transaction
  | update
  | attach
  | detach
  | alterTable
  | reindex
  | analyze
  | createVtable
  | dropVtable
  | function
  | savepoint
  | recursive
  deriving DecidableEq

/-- A request: its code and its first two arguments. -/
structure Request where
  action : Action
  argumentOne : Option String
  argumentTwo : Option String
  deriving DecidableEq

namespace Request

/-- A row or the schema is changed, or a setting. -/
def Changes (r : Request) : Prop :=
  match r.action with
  | .pragma => r.argumentTwo ≠ none
  | .read | .select | .transaction | .function | .savepoint | .recursive => False
  | _ => True

/-- A transaction or a savepoint is rolled back. -/
def RollsBack (r : Request) : Prop :=
  (r.action = .transaction ∨ r.action = .savepoint) ∧ r.argumentOne = some "ROLLBACK"

end Request

/-- The rows, the schema among them, and the rows a rollback goes back to. -/
structure Store (δ : Type) where
  rows : δ
  snapshots : List δ

/-- What SQLite makes of a text and of its parameters. -/
structure Engine (δ π : Type) where
  Statement : Type
  compile : δ → String → Option Statement
  requests : Statement → List Request
  /-- Whether it returns or raises. -/
  run : Statement → π → Store δ → Store δ

variable {δ π α : Type}

/-- What is documented of the authorizer: a statement that changes rows or the schema requests it,
and one that changes neither leaves the rows or goes back to a snapshot, which it requests too.
Creating and dropping a virtual table inserts in the schema table or deletes from it. -/
structure Engine.Documented (e : Engine δ π) : Prop where
  leaves : ∀ st params s, (∀ r ∈ e.requests st, ¬r.Changes) →
    (∀ r ∈ e.requests st, ¬r.RollsBack) → (e.run st params s).rows = s.rows
  restores : ∀ st params s, (∀ r ∈ e.requests st, ¬r.Changes) →
    (e.run st params s).rows = s.rows ∨ (e.run st params s).rows ∈ s.snapshots
  vtable : ∀ st, (∃ r ∈ e.requests st, r.action = .createVtable ∨ r.action = .dropVtable) →
    ∃ r ∈ e.requests st, r.action = .insert ∨ r.action = .delete

/-! ### Connections -/

/-- A connection: the store, and the statements it keeps, each with the authority under which the
authorizer was asked for it. -/
structure Connection (e : Engine δ π) (α : Type) where
  store : Store δ
  cache : String → Option (e.Statement × α)

namespace Connection

variable {e : Engine δ π}

/-- A text is compiled, and the authorizer is asked. -/
def compile (c : Connection e α) (allows : α → Request → Bool) (authority : α) (text : String) :
    Option e.Statement :=
  (e.compile c.store.rows text).filter fun st => (e.requests st).all (allows authority)

/-- The statement of a text: the one that is kept, unless it is still in use. -/
def statement? (c : Connection e α) (allows : α → Request → Bool) (authority : α) (text : String)
    (inUse : Bool) : Option e.Statement :=
  if inUse then c.compile allows authority text
  else match c.cache text with
    | some (st, _) => some st
    | none => c.compile allows authority text

/-- `execute`.  A statement that is in use is compiled anew and not kept. -/
def execute (c : Connection e α) (allows : α → Request → Bool) (authority : α) (text : String)
    (params : π) (inUse : Bool) : Connection e α :=
  match c.statement? allows authority text inUse with
  | none => c
  | some st => {
      store := e.run st params c.store
      cache := match c.cache text with
        | some _ => c.cache
        | none => Function.update c.cache text (some (st, authority)) }

/-- The cache drops a statement. -/
def evict (c : Connection e α) (text : String) : Connection e α :=
  { c with cache := Function.update c.cache text none }

/-- The authorizer allowed every statement that is kept. -/
def Asked (c : Connection e α) (allows : α → Request → Bool) : Prop :=
  ∀ text st authority, c.cache text = some (st, authority) →
    ∀ r ∈ e.requests st, allows authority r = true

section

variable {c : Connection e α} {allows : α → Request → Bool} {authority : α} {text : String}
  {params : π} {inUse : Bool}

theorem compile_allowed {st : e.Statement} (h : c.compile allows authority text = some st) :
    ∀ r ∈ e.requests st, allows authority r = true := by
  rw [compile, Option.filter_eq_some_iff] at h
  exact List.all_eq_true.mp h.2

/-- What runs was allowed, now or under the authority it was kept with. -/
theorem statement?_allowed {st : e.Statement} (hasked : c.Asked allows)
    (h : c.statement? allows authority text inUse = some st) :
    (∀ r ∈ e.requests st, allows authority r = true) ∨
      inUse = false ∧ ∃ kept, c.cache text = some (st, kept) ∧
        ∀ r ∈ e.requests st, allows kept r = true := by
  rw [statement?] at h
  split at h
  · exact Or.inl (compile_allowed h)
  · next hfresh =>
    split at h
    · next kept hcache =>
      obtain rfl := Option.some.inj h
      exact Or.inr ⟨Bool.eq_false_iff.mpr hfresh, kept, hcache, hasked text _ kept hcache⟩
    · exact Or.inl (compile_allowed h)

theorem asked_evict (hasked : c.Asked allows) : (c.evict text).Asked allows := by
  intro t st a h
  replace h : Function.update c.cache text none t = some (st, a) := h
  by_cases ht : t = text
  · rw [ht, Function.update_self] at h
    exact nomatch h
  · rw [Function.update_of_ne ht] at h
    exact hasked t st a h

theorem asked_execute (hasked : c.Asked allows) :
    (c.execute allows authority text params inUse).Asked allows := by
  rw [execute]
  split
  · exact hasked
  · next st hst =>
    cases hcache : c.cache text with
    | some kept => exact hasked
    | none =>
      intro t st' a h
      by_cases ht : t = text
      · rw [ht] at h
        dsimp only at h
        rw [Function.update_self] at h
        obtain ⟨rfl, rfl⟩ := Prod.mk.inj (Option.some.inj h)
        rcases statement?_allowed hasked hst with hallowed | ⟨_, kept, hkept, _⟩
        · exact hallowed
        · rw [hcache] at hkept
          exact nomatch hkept
      · dsimp only at h
        rw [Function.update_of_ne ht] at h
        exact hasked t st' a h

/-- **What leaves the rows.**  A statement that changes nothing and, when it rolls back, has nothing
to go back to, leaves the rows. -/
theorem execute_rows (hdoc : e.Documented)
    (hchanges : ∀ st, c.statement? allows authority text inUse = some st →
      ∀ r ∈ e.requests st, ¬r.Changes)
    (hrollback : ∀ st, c.statement? allows authority text inUse = some st →
      (∃ r ∈ e.requests st, r.RollsBack) → ∀ d ∈ c.store.snapshots, d = c.store.rows) :
    (c.execute allows authority text params inUse).store.rows = c.store.rows := by
  rw [execute]
  split
  · rfl
  · next st hst =>
    dsimp only
    have hst' := hchanges st hst
    by_cases hroll : ∃ r ∈ e.requests st, r.RollsBack
    · rcases hdoc.restores st params c.store hst' with h | h
      · exact h
      · exact hrollback st hst hroll _ h
    · exact hdoc.leaves st params c.store hst' fun r hr hrolls => hroll ⟨r, hr, hrolls⟩

end

end Connection

end Py.Sqlite
