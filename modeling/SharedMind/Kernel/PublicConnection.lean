import SharedMind.Py.Sqlite

/-!
# The public connection

`kernel.connection` hands every statement to the one connection of the kernel, whose authorizer
refuses requests to write while no write method of the kernel is running.

* `authorizeSql`: `_authorize_sql`, with the depth of `_authorized_writes`.
* `Action`, `Step`, `Run`: what the kernel and its callers do on the connection.
-/

namespace SharedMind.PublicConnection

open Py.Sqlite

/-! ### The authorizer -/

/-- `write_actions`. -/
def writeActions : List Py.Sqlite.Action := [.insert, .update, .delete, .createIndex, .createTable,
  .createTempIndex, .createTempTable, .createTempTrigger, .createTempView, .createTrigger,
  .createView, .dropIndex, .dropTable, .dropTempIndex, .dropTempTable, .dropTempTrigger,
  .dropTempView, .dropTrigger, .dropView, .alterTable, .reindex, .analyze, .attach, .detach]

/-- `_authorize_sql`, for a depth of authorized writes. -/
def authorizeSql (depth : Nat) (r : Request) : Bool :=
  let denied := r.action ∈ writeActions ∨ (r.action = .pragma ∧ r.argumentTwo ≠ none)
  ¬(denied ∧ depth = 0)

/-- What is allowed without authority changes nothing, if it is no virtual table. -/
theorem not_changes_of_authorized {r : Request} (h : authorizeSql 0 r = true)
    (hvtable : r.action ≠ .createVtable ∧ r.action ≠ .dropVtable) : ¬r.Changes := by
  rw [authorizeSql, decide_eq_true_eq, and_iff_left rfl, not_or] at h
  obtain ⟨hwrite, hpragma⟩ := h
  obtain ⟨action, one, two⟩ := r
  cases action <;> simp_all [writeActions, Request.Changes]

/-- A statement that is allowed without authority changes nothing. -/
theorem statement_not_changes {δ π : Type} {e : Engine δ π} (hdoc : e.Documented) {st : e.Statement}
    (h : ∀ r ∈ e.requests st, authorizeSql 0 r = true) : ∀ r ∈ e.requests st, ¬r.Changes := by
  intro r hr
  refine not_changes_of_authorized (h r hr) (not_or.mp fun hvtable => ?_)
  obtain ⟨w, hw, haction⟩ := hdoc.vtable st ⟨r, hr, hvtable⟩
  have hwrite : w.action ∈ writeActions := by
    rcases haction with haction | haction <;> rw [haction] <;> decide
  have hallowed := h w hw
  rw [authorizeSql, decide_eq_true_eq] at hallowed
  exact hallowed ⟨Or.inl hwrite, rfl⟩

/-! ### Runs -/

variable {δ π : Type}

/-- Who executes a statement: a method of the kernel, or a caller on `kernel.connection`. -/
inductive Who where
  | kernel
  | caller
  deriving DecidableEq

/-- `_authorized_writes` is entered and left, a statement is executed, or one is dropped from the
cache. -/
inductive Action (π : Type) where
  | enterWrite
  | leaveWrite
  | execute (who : Who) (text : String) (params : π) (inUse : Bool)
  | evict (text : String)

/-- The connection of a kernel, each kept statement with the depth it was compiled at, and the depth
of authorized writes. -/
structure State (e : Engine δ π) where
  connection : Connection e Nat
  depth : Nat

variable {e : Engine δ π}

/-- One step.  A caller executes while no write method is running. -/
inductive Step (s : State e) : Action π → State e → Prop
  | enterWrite : Step s .enterWrite { s with depth := s.depth + 1 }
  | leaveWrite : 0 < s.depth → Step s .leaveWrite { s with depth := s.depth - 1 }
  | execute (who : Who) (text : String) (params : π) (inUse : Bool) :
      (who = .caller → s.depth = 0) → Step s (.execute who text params inUse)
        { s with connection := s.connection.execute authorizeSql s.depth text params inUse }
  | evict (text : String) :
      Step s (.evict text) { s with connection := s.connection.evict text }

/-- After `__init__`, whose statements were compiled with no authorizer set. -/
def State.Opened (s : State e) : Prop :=
  s.depth = 0 ∧ ∀ text st depth, s.connection.cache text = some (st, depth) → 0 < depth

/-- A step that was taken. -/
structure Taken (e : Engine δ π) where
  before : State e
  action : Action π
  after : State e

/-- What is done on the connection of a kernel, from when it is opened. -/
inductive Run (e : Engine δ π) : List (Taken e) → State e → Prop
  | opened {s : State e} : s.Opened → Run e [] s
  | snoc {steps : List (Taken e)} {s t : State e} {a : Action π} (run : Run e steps s)
      (h : Step s a t) : Run e (steps ++ [⟨s, a, t⟩]) t

theorem authorizeSql_of_pos {depth : Nat} (h : 0 < depth) (r : Request) :
    authorizeSql depth r = true := by
  rw [authorizeSql, decide_eq_true_eq]
  rintro ⟨_, rfl⟩
  exact absurd h (Nat.lt_irrefl 0)

theorem Step.asked {s t : State e} {a : Action π} (h : Step s a t)
    (hasked : s.connection.Asked authorizeSql) : t.connection.Asked authorizeSql := by
  cases h with
  | enterWrite => exact hasked
  | leaveWrite _ => exact hasked
  | execute who text params inUse _ => exact Connection.asked_execute hasked
  | evict text => exact Connection.asked_evict hasked

/-- In a run the authorizer allowed every statement that is kept. -/
theorem Run.asked {steps : List (Taken e)} {s : State e} (run : Run e steps s) :
    s.connection.Asked authorizeSql := by
  induction run with
  | opened h => exact fun text st depth hcache r _ => authorizeSql_of_pos (h.2 text st depth hcache) r
  | snoc run h ih => exact h.asked ih

/-- Every step of a run starts from the end of a run. -/
theorem Run.before {steps : List (Taken e)} {s : State e} (run : Run e steps s) :
    ∀ st ∈ steps, (∃ steps', Run e steps' st.before) ∧ Step st.before st.action st.after := by
  induction run with
  | opened _ => simp
  | snoc run h ih =>
    rw [List.forall_mem_append, List.forall_mem_singleton]
    exact ⟨ih, ⟨_, run⟩, h⟩

end SharedMind.PublicConnection
