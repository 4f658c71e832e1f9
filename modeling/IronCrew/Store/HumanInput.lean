import IronCrew.Run.Status

/-!
# Human-input contracts

A question as the flow asks it, and the replies of a store that keeps questions for several replicas.
-/

namespace IronCrew

/-- The public metadata of a pending question. -/
structure QuestionInfo where
  questionId : String
  prompt : String
  choices : List String
  askedAt : String
  timeoutS : Nat
  -- "question" or "approval"
  kind : String
  deriving DecidableEq

structure DurableHumanInputRegistration where
  flow : String
  runId : String
  question : QuestionInfo
  keyHash : String
  attemptId : String

inductive HumanInputRegistrationOutcome where
  | registered
  | ownerDraining (ownerInstanceId : String)
  | notDurable
  deriving DecidableEq

inductive HumanInputAnswerOutcome where
  | queued (ownerInstanceId : String)
  | ownerDraining (ownerInstanceId : String)
  | alreadyAnswered
  | notFound
  | notDurable
  deriving DecidableEq

end IronCrew
