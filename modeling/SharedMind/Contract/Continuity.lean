import SharedMind.Contract.Claim

/-!
# Decisions, questions and work items

The continuity records of the contract.  A record's lifecycle rules (which members
go with which status) are a refinement of its shape: `DecisionDoc` is the shape
`DecisionRecord` and `NewDecisionRecord` share, and the reducers, which rewrite
members of a stored document, work on the shape.
-/

namespace SharedMind

open Py

/-! ### References -/

inductive RecordType where
  | sourceRevision
  | claim
  | conflict
  | decisionRecord
  | openQuestion
  | workItem
  deriving DecidableEq

namespace RecordType

def all : List RecordType :=
  [sourceRevision, claim, conflict, decisionRecord, openQuestion, workItem]

def text : RecordType → String
  | sourceRevision => "SOURCE_REVISION"
  | claim => "CLAIM"
  | conflict => "CONFLICT"
  | decisionRecord => "DECISION_RECORD"
  | openQuestion => "OPEN_QUESTION"
  | workItem => "WORK_ITEM"

def codec : Codec RecordType :=
  .enum all text (by intro a; cases a <;> decide)
    (by intro a b; cases a <;> cases b <;> decide)

end RecordType

structure RecordRef where
  recordId : RecordId
  recordType : RecordType
  deriving DecidableEq

def RecordRef.codec : Codec RecordRef :=
  ((Fields.req "record_id" Text.codec (.req "record_type" RecordType.codec .nil)).object
    (by decide)).iso (fun p => ⟨p.1, p.2.1⟩) (fun r => (r.recordId, r.recordType, ()))
    (fun _ => rfl) (fun _ => rfl)

/-- A list without equal items. -/
abbrev Unique {α : Type} (c : Codec α) : Type := {as : List α // c.UniqueItems as}

def uniqueList {α : Type} (c : Codec α) : Codec (Unique c) := c.list.refine c.UniqueItems

/-- Record identifiers without repetition. -/
abbrev RecordIds : Type := Unique (Text.codec (p := recordIdPattern.search))

/-! ### Decisions -/

inductive DecisionStatus where
  | active
  | superseded
  | reversed
  deriving DecidableEq

namespace DecisionStatus

def text : DecisionStatus → String
  | active => "ACTIVE"
  | superseded => "SUPERSEDED"
  | reversed => "REVERSED"

def codec : Codec DecisionStatus :=
  .enum [active, superseded, reversed] text (by intro a; cases a <;> decide)
    (by intro a b; cases a <;> cases b <;> decide)

end DecisionStatus

/-- The shape of a `DecisionRecord`. -/
structure DecisionDoc where
  alternatives : Unique (Text.codec (p := lengthIn 1 2048))
  conclusion : Bounded 1 8192
  decisionId : RecordId
  rationale : Bounded 1 8192
  recordedAt : String
  recordedBy : ActorRef
  relatedClaimIds : RecordIds
  relatedSourceRevisionIds : RecordIds
  replacedByDecisionId : Option RecordId
  status : DecisionStatus
  title : Bounded 1 512
  version : AtLeast 1
  deriving DecidableEq

namespace DecisionDoc

def codec : Codec DecisionDoc :=
  ((Fields.req "alternatives" (uniqueList _) (.req "conclusion" Text.codec
    (.req "decision_id" Text.codec (.const "object_type" "DECISION_RECORD"
    (.req "rationale" Text.codec (.req "recorded_at" .str (.req "recorded_by" ActorRef.codec
    (.req "related_claim_ids" (uniqueList _) (.req "related_source_revision_ids" (uniqueList _)
    (.req "replaced_by_decision_id" Text.nullable (.req "status" DecisionStatus.codec
    (.req "title" Text.codec (.req "version" AtLeast.codec .nil))))))))))))).object
    (by decide)).iso
    (fun p => ⟨p.1, p.2.1, p.2.2.1, p.2.2.2.1, p.2.2.2.2.1, p.2.2.2.2.2.1, p.2.2.2.2.2.2.1,
      p.2.2.2.2.2.2.2.1, p.2.2.2.2.2.2.2.2.1, p.2.2.2.2.2.2.2.2.2.1, p.2.2.2.2.2.2.2.2.2.2.1,
      p.2.2.2.2.2.2.2.2.2.2.2.1⟩)
    (fun d => (d.alternatives, d.conclusion, d.decisionId, d.rationale, d.recordedAt, d.recordedBy,
      d.relatedClaimIds, d.relatedSourceRevisionIds, d.replacedByDecisionId, d.status, d.title,
      d.version, ())) (fun _ => rfl) (fun _ => rfl)

/-- `replaced_by_decision_id` goes with `status`. -/
def WellFormed (d : DecisionDoc) : Prop := (d.status = .active) ↔ d.replacedByDecisionId = none

instance : DecidablePred WellFormed := fun _ => inferInstanceAs (Decidable (_ ↔ _))

/-- The state of a new decision. -/
def IsNew (d : DecisionDoc) : Prop :=
  d.status = .active ∧ d.version.eqInt 1 = true ∧ d.replacedByDecisionId = none

instance : DecidablePred IsNew := fun _ => inferInstanceAs (Decidable (_ ∧ _ ∧ _))

end DecisionDoc

/-- `DecisionRecord`. -/
abbrev DecisionRecord : Type := {d : DecisionDoc // d.WellFormed}

def DecisionRecord.codec : Codec DecisionRecord := DecisionDoc.codec.refine DecisionDoc.WellFormed

/-- `NewDecisionRecord`; a new decision is well formed. -/
abbrev NewDecisionRecord : Type := {d : DecisionDoc // d.IsNew}

def NewDecisionRecord.codec : Codec NewDecisionRecord := DecisionDoc.codec.refine DecisionDoc.IsNew

/-! ### Questions -/

structure QuestionAnswer where
  answer : Bounded 1 8192
  answerReference : RecordRef
  answeredAt : String
  answeredBy : ActorRef
  deriving DecidableEq

namespace QuestionAnswer

def fields : Fields (Bounded 1 8192 × RecordRef × String × ActorRef × Unit) :=
  .req "answer" Text.codec (.req "answer_reference" RecordRef.codec
    (.req "answered_at" .str (.req "answered_by" ActorRef.codec .nil)))

def codec : Codec QuestionAnswer :=
  (fields.object (by decide)).iso (fun p => ⟨p.1, p.2.1, p.2.2.1, p.2.2.2.1⟩)
    (fun a => (a.answer, a.answerReference, a.answeredAt, a.answeredBy, ()))
    (fun _ => rfl) (fun _ => rfl)

theorem codec_ne_null (a : QuestionAnswer) : codec.enc a ≠ .null :=
  Fields.object_enc_ne_null fields (by decide) _

end QuestionAnswer

structure QuestionDrop where
  droppedAt : String
  droppedBy : ActorRef
  rationale : Bounded 1 4096
  deriving DecidableEq

namespace QuestionDrop

def fields : Fields (String × ActorRef × Bounded 1 4096 × Unit) :=
  .req "dropped_at" .str (.req "dropped_by" ActorRef.codec (.req "rationale" Text.codec .nil))

def codec : Codec QuestionDrop :=
  (fields.object (by decide)).iso (fun p => ⟨p.1, p.2.1, p.2.2.1⟩)
    (fun d => (d.droppedAt, d.droppedBy, d.rationale, ())) (fun _ => rfl) (fun _ => rfl)

theorem codec_ne_null (d : QuestionDrop) : codec.enc d ≠ .null :=
  Fields.object_enc_ne_null fields (by decide) _

end QuestionDrop

inductive QuestionStatus where
  | «open»
  | answered
  | dropped
  deriving DecidableEq

namespace QuestionStatus

def text : QuestionStatus → String
  | «open» => "OPEN"
  | answered => "ANSWERED"
  | dropped => "DROPPED"

def codec : Codec QuestionStatus :=
  .enum [«open», answered, dropped] text (by intro a; cases a <;> decide)
    (by intro a b; cases a <;> cases b <;> decide)

end QuestionStatus

/-- The shape of an `OpenQuestion`. -/
structure QuestionDoc where
  answer : Option QuestionAnswer
  context : Bounded 1 8192
  drop : Option QuestionDrop
  openedAt : String
  openedBy : ActorRef
  question : Bounded 1 4096
  questionId : RecordId
  relatedObjects : Unique RecordRef.codec
  status : QuestionStatus
  version : AtLeast 1
  deriving DecidableEq

namespace QuestionDoc

def codec : Codec QuestionDoc :=
  ((Fields.req "answer" (QuestionAnswer.codec.nullable QuestionAnswer.codec_ne_null)
    (.req "context" Text.codec
    (.req "drop" (QuestionDrop.codec.nullable QuestionDrop.codec_ne_null)
    (.const "object_type" "OPEN_QUESTION" (.req "opened_at" .str
    (.req "opened_by" ActorRef.codec (.req "question" Text.codec (.req "question_id" Text.codec
    (.req "related_objects" (uniqueList _) (.req "status" QuestionStatus.codec
    (.req "version" AtLeast.codec .nil))))))))))).object (by decide)).iso
    (fun p => ⟨p.1, p.2.1, p.2.2.1, p.2.2.2.1, p.2.2.2.2.1, p.2.2.2.2.2.1, p.2.2.2.2.2.2.1,
      p.2.2.2.2.2.2.2.1, p.2.2.2.2.2.2.2.2.1, p.2.2.2.2.2.2.2.2.2.1⟩)
    (fun q => (q.answer, q.context, q.drop, q.openedAt, q.openedBy, q.question, q.questionId,
      q.relatedObjects, q.status, q.version, ())) (fun _ => rfl) (fun _ => rfl)

/-- `answer` and `drop` go with `status`. -/
def WellFormed (q : QuestionDoc) : Prop :=
  (q.status = .answered ↔ q.answer.isSome = true) ∧ (q.status = .dropped ↔ q.drop.isSome = true)

instance : DecidablePred WellFormed := fun _ => inferInstanceAs (Decidable ((_ ↔ _) ∧ (_ ↔ _)))

/-- The state of a new question. -/
def IsNew (q : QuestionDoc) : Prop :=
  q.status = .open ∧ q.version.eqInt 1 = true ∧ q.answer = none ∧ q.drop = none

instance : DecidablePred IsNew := fun _ => inferInstanceAs (Decidable (_ ∧ _ ∧ _ ∧ _))

end QuestionDoc

/-- `OpenQuestion`. -/
abbrev OpenQuestion : Type := {q : QuestionDoc // q.WellFormed}

def OpenQuestion.codec : Codec OpenQuestion := QuestionDoc.codec.refine QuestionDoc.WellFormed

/-- `NewOpenQuestion`. -/
abbrev NewOpenQuestion : Type := {q : QuestionDoc // q.IsNew}

def NewOpenQuestion.codec : Codec NewOpenQuestion := QuestionDoc.codec.refine QuestionDoc.IsNew

/-! ### Work items -/

inductive WorkItemStatus where
  | todo
  | doing
  | blocked
  | done
  | dropped
  deriving DecidableEq

namespace WorkItemStatus

def text : WorkItemStatus → String
  | todo => "TODO"
  | doing => "DOING"
  | blocked => "BLOCKED"
  | done => "DONE"
  | dropped => "DROPPED"

def codec : Codec WorkItemStatus :=
  .enum [todo, doing, blocked, done, dropped] text (by intro a; cases a <;> decide)
    (by intro a b; cases a <;> cases b <;> decide)

end WorkItemStatus

inductive Priority where
  | p0
  | p1
  | p2
  | p3
  deriving DecidableEq

namespace Priority

def text : Priority → String
  | p0 => "P0"
  | p1 => "P1"
  | p2 => "P2"
  | p3 => "P3"

def codec : Codec Priority :=
  .enum [p0, p1, p2, p3] text (by intro a; cases a <;> decide)
    (by intro a b; cases a <;> cases b <;> decide)

end Priority

/-- The shape of a `WorkItem`. -/
structure WorkItemDoc where
  blocker : Option (Bounded 1 4096)
  createdAt : String
  createdBy : ActorRef
  description : Bounded 1 8192
  priority : Priority
  relatedObjects : Unique RecordRef.codec
  status : WorkItemStatus
  updatedAt : String
  version : AtLeast 1
  workItemId : RecordId
  deriving DecidableEq

namespace WorkItemDoc

def codec : Codec WorkItemDoc :=
  ((Fields.req "blocker" Text.nullable (.req "created_at" .str (.req "created_by" ActorRef.codec
    (.req "description" Text.codec (.const "object_type" "WORK_ITEM"
    (.req "priority" Priority.codec (.req "related_objects" (uniqueList _)
    (.req "status" WorkItemStatus.codec (.req "updated_at" .str (.req "version" AtLeast.codec
    (.req "work_item_id" Text.codec .nil))))))))))).object (by decide)).iso
    (fun p => ⟨p.1, p.2.1, p.2.2.1, p.2.2.2.1, p.2.2.2.2.1, p.2.2.2.2.2.1, p.2.2.2.2.2.2.1,
      p.2.2.2.2.2.2.2.1, p.2.2.2.2.2.2.2.2.1, p.2.2.2.2.2.2.2.2.2.1⟩)
    (fun w => (w.blocker, w.createdAt, w.createdBy, w.description, w.priority, w.relatedObjects,
      w.status, w.updatedAt, w.version, w.workItemId, ())) (fun _ => rfl) (fun _ => rfl)

/-- `blocker` goes with `status`. -/
def WellFormed (w : WorkItemDoc) : Prop := w.status = .blocked ↔ w.blocker.isSome = true

instance : DecidablePred WellFormed := fun _ => inferInstanceAs (Decidable (_ ↔ _))

/-- The state of a new work item. -/
def IsNew (w : WorkItemDoc) : Prop :=
  w.status = .todo ∧ w.version.eqInt 1 = true ∧ w.blocker = none

instance : DecidablePred IsNew := fun _ => inferInstanceAs (Decidable (_ ∧ _ ∧ _))

end WorkItemDoc

/-- `WorkItem`. -/
abbrev WorkItem : Type := {w : WorkItemDoc // w.WellFormed}

def WorkItem.codec : Codec WorkItem := WorkItemDoc.codec.refine WorkItemDoc.WellFormed

/-- `NewWorkItem`. -/
abbrev NewWorkItem : Type := {w : WorkItemDoc // w.IsNew}

def NewWorkItem.codec : Codec NewWorkItem := WorkItemDoc.codec.refine WorkItemDoc.IsNew

end SharedMind
