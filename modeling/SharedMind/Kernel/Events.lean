import SharedMind.Kernel.Reducers

/-!
# What an operation emits

* `Txn.Emits`: events are only appended, and every conflict that is opened is in the
  list of those opened.
* `applyOperation_emits`: every operation emits so, and at least one event.
-/

namespace SharedMind

open Py

/-- The conflict an event opens. -/
def LedgerEvent.opened? : LedgerEvent → Option RecordId
  | .conflictOpened c => some c.conflictId
  | _ => none

def openedIds (events : List LedgerEvent) : List RecordId := events.filterMap LedgerEvent.opened?

@[simp] theorem openedIds_nil : openedIds [] = [] := rfl

@[simp] theorem openedIds_append (es fs : List LedgerEvent) :
    openedIds (es ++ fs) = openedIds es ++ openedIds fs := List.filterMap_append

/-- The events of `w` come first in those of `w'`, and the conflicts the others open are
those listed. -/
def Txn.Emits (w w' : Txn) : Prop :=
  ∃ es, w'.events = w.events ++ es ∧ w'.conflictIds = w.conflictIds ++ openedIds es

namespace Txn.Emits

variable {u v w : Txn}

theorem refl (w : Txn) : Emits w w := ⟨[], by simp, by simp⟩

theorem trans (h : Emits u v) (h' : Emits v w) : Emits u w := by
  obtain ⟨es, he, hc⟩ := h
  obtain ⟨fs, hf, hd⟩ := h'
  exact ⟨es ++ fs, by rw [hf, he, List.append_assoc],
    by rw [hd, hc, openedIds_append, List.append_assoc]⟩

theorem emit {t : Tables} {e : LedgerEvent} (h : e.opened? = none) : Emits w (w.emit t e) :=
  ⟨[e], rfl, by simp [openedIds, h]⟩

end Txn.Emits

variable {w w' : Txn} {reg : Registry}

theorem openConflictOf_emits {incoming : Claim} {family : Hash} {kind : ConflictKind}
    {found : List (RecordId × ConflictKind)} {openedSeq : Nat}
    (h : openConflictOf w incoming family kind found openedSeq = .ok w') : w.Emits w' := by
  rcases openConflictOf_eq_ok.mp h with ⟨_, rfl⟩ | ⟨_, c, _, rfl⟩
  · exact .refl _
  · exact ⟨[.conflictOpened (conflictDocument c.1 c.2)], rfl, rfl⟩

variable [Host]

theorem assertClaim_emits {claim : Claim} {evidence : List EvidenceLink} {ignored : List RecordId}
    {openedSeq : Nat} (h : assertClaim reg w claim evidence ignored openedSeq = .ok w') :
    w.Emits w' := by
  obtain ⟨_, t, _, _, hopen⟩ := assertClaim_eq_ok.mp h
  obtain ⟨_, v, _, hv, hw⟩ := openConflicts_eq_ok.mp hopen
  have hemit : w.Emits (w.emit t (.claimAsserted claim evidence)) := .emit rfl
  exact hemit.trans ((openConflictOf_emits hv).trans (openConflictOf_emits hw))

variable {proposer : ActorRef} {openedSeq : Nat} {op : Operation}

/-- Every operation appends its events, and lists the conflicts they open. -/
theorem applyOperation_emits (h : applyOperation reg proposer openedSeq w op = .ok w') :
    w.Emits w' := by
  cases op with
  | registerSourceRevision _ source =>
    rcases registerSourceRevision_eq_ok.mp h with ⟨_, _, _, _, rfl⟩ | ⟨_, _, _, _, rfl⟩ <;>
      exact .emit rfl
  | assertClaim claim evidence _ => exact assertClaim_emits h
  | attachEvidence link _ =>
    obtain ⟨_, _, t, _, _, _, _, _, rfl⟩ := attachEvidence_eq_ok.mp h
    exact .emit rfl
  | supersedeClaim op =>
    obtain ⟨_, v, _, _, hv, rfl⟩ := supersedeClaim_eq_ok.mp h
    exact (assertClaim_emits hv).trans (.emit rfl)
  | retractClaim op =>
    obtain ⟨_, _, _, _, _, rfl⟩ := retractClaim_eq_ok.mp h
    exact .emit rfl
  | resolveConflict op =>
    obtain ⟨_, _, _, rfl⟩ := resolveConflict_eq_ok.mp h
    exact .emit rfl
  | recordDecision decision _ =>
    obtain ⟨_, rfl⟩ := recordDecision_eq_ok.mp h
    exact .emit rfl
  | supersedeDecision op =>
    obtain ⟨_, _, _, _, rfl⟩ := supersedeDecision_eq_ok.mp h
    exact .emit rfl
  | openQuestion _ question =>
    obtain ⟨_, rfl⟩ := openQuestion_eq_ok.mp h
    exact .emit rfl
  | answerQuestion answer _ target =>
    obtain ⟨_, _, _, rfl⟩ := answerQuestion_eq_ok.mp h
    exact .emit rfl
  | dropQuestion drop _ target =>
    obtain ⟨_, _, _, rfl⟩ := dropQuestion_eq_ok.mp h
    exact .emit rfl
  | createWorkItem _ workItem =>
    obtain ⟨_, rfl⟩ := createWorkItem_eq_ok.mp h
    exact .emit rfl
  | updateWorkItemStatus op =>
    obtain ⟨_, _, _, rfl⟩ := updateWorkItemStatus_eq_ok.mp h
    exact .emit rfl

theorem applyOperations_emits {t : Tables} {ops : List Operation}
    (h : applyOperations reg proposer openedSeq t ops = .ok w') :
    w'.conflictIds = openedIds w'.events := by
  obtain ⟨es, he, hc⟩ := foldlM_rel (R := Txn.Emits) .refl (fun _ _ _ => .trans)
    (fun _ _ _ _ hop => applyOperation_emits hop) h
  rw [he, hc]
  rfl

end SharedMind
