import Appraisal.Model.Basic
import Appraisal.Schema.Leaf

/-!
# Records of the reasoning

The records of decisions, of flagged entries, and of the reasoning as a whole.
-/

namespace Appraisal

/-- The record of a decision. -/
structure DecisionRecord where
  decision : String
  rationale : String
  affectedFields : List String
  confidence : Binary64
  alternatives : List String
  deriving DecidableEq, Repr

namespace DecisionRecord

def title : String := "ReasoningDecisionSchema"

/-- The record of five fields. -/
def ofFields (decision rationale affectedFields confidence alternatives : Option Payload) :
    Reading DecisionRecord :=
  mk <$> Reading.required "decision" Schema.nonEmptyText decision
    <*> Reading.required "rationale" Schema.nonEmptyText rationale
    <*> Reading.orUsual "affectedFields" (Reading.listOf Schema.text) [] affectedFields
    <*> Reading.required "confidence" Schema.share confidence
    <*> Reading.orUsual "alternatives" (Reading.listOf Schema.text) [] alternatives

/-- Reads a decision. -/
def read : Reader DecisionRecord :=
  Reading.record title fun field =>
    ofFields (field "decision") (field "rationale") (field "affectedFields") (field "confidence")
      (field "alternatives")

def toPayload (decision : DecisionRecord) : Payload :=
  .object
    [("decision", .text decision.decision), ("rationale", .text decision.rationale),
      ("affectedFields", .list (decision.affectedFields.map .text)),
      ("confidence", .float decision.confidence),
      ("alternatives", .list (decision.alternatives.map .text))]

def schema : Schema DecisionRecord :=
  { title, read, toPayload }

/-- The record of a decision. -/
def ofDecision (decision : ReasoningDecision) : Except Failure DecisionRecord :=
  Reading.built title <|
    ofFields (some (.text decision.decision)) (some (.text decision.rationale))
      (some (.list (decision.affectedFields.map .text))) (some decision.confidence.toPayload)
      (some (.list (decision.alternatives.map .text)))

/-- The decision of a record. -/
def toDecision (decision : DecisionRecord) : ReasoningDecision :=
  { decision := decision.decision
    rationale := decision.rationale
    affectedFields := decision.affectedFields
    confidence := .real decision.confidence
    alternatives := decision.alternatives }

end DecisionRecord

/-- The record of a flagged entry. -/
structure FlagRecord where
  field : String
  reason : String
  severity : Severity
  suggestedAction : Option String
  confidence : Option Binary64
  deriving DecidableEq, Repr

namespace FlagRecord

def title : String := "FlaggedItemSchema"

/-- The record of five fields. -/
def ofFields (place reason severity suggestedAction confidence : Option Payload) :
    Reading FlagRecord :=
  mk <$> Reading.required "field" Schema.text place
    <*> Reading.required "reason" Schema.nonEmptyText reason
    <*> Reading.required "severity" (Schema.option Severity) severity
    <*> Reading.optional "suggestedAction" Schema.text suggestedAction
    <*> Reading.optional "confidence" Schema.share confidence

/-- Reads a flagged entry. -/
def read : Reader FlagRecord :=
  Reading.record title fun field =>
    ofFields (field "field") (field "reason") (field "severity") (field "suggestedAction")
      (field "confidence")

def toPayload (flag : FlagRecord) : Payload :=
  .object
    [("field", .text flag.field), ("reason", .text flag.reason),
      ("severity", Named.toPayload flag.severity),
      ("suggestedAction", .ofText? flag.suggestedAction),
      ("confidence", .ofFloat? flag.confidence)]

def schema : Schema FlagRecord :=
  { title, read, toPayload }

/-- The record of a flagged entry. -/
def ofFlag (flag : FlaggedItem) : Except Failure FlagRecord :=
  Reading.built title <|
    ofFields (some (.text flag.field)) (some (.text flag.reason))
      (some (Named.toPayload flag.severity)) (some (.ofText? flag.suggestedAction))
      (some (.orNull Measure.toPayload flag.confidence))

/-- The flagged entry of a record. -/
def toFlag (flag : FlagRecord) : FlaggedItem :=
  { field := flag.field
    reason := flag.reason
    severity := flag.severity
    suggestedAction := flag.suggestedAction
    confidence := flag.confidence.map .real }

end FlagRecord

/-- The record of the reasoning of a model. -/
structure ReasoningRecord where
  summary : String
  decisions : List DecisionRecord
  flaggedItems : List FlagRecord
  overallConfidence : Binary64
  deriving DecidableEq, Repr

namespace ReasoningRecord

def title : String := "BriefReasoningSchema"

/-- The record of its fields, of which the lists have been read. -/
def ofFields (summary : Option Payload) (decisions : Reading (List DecisionRecord))
    (flaggedItems : Reading (List FlagRecord)) (overallConfidence : Option Payload) :
    Reading ReasoningRecord :=
  mk <$> Reading.required "summary" Schema.nonEmptyText summary
    <*> decisions
    <*> flaggedItems
    <*> Reading.required "overallConfidence" Schema.share overallConfidence

/-- Reads the reasoning of a model. -/
def read : Reader ReasoningRecord :=
  Reading.record title fun field =>
    ofFields (field "summary")
      (Reading.orUsual "decisions" (Reading.listOf DecisionRecord.read) [] (field "decisions"))
      (Reading.orUsual "flaggedItems" (Reading.listOf FlagRecord.read) [] (field "flaggedItems"))
      (field "overallConfidence")

def toPayload (reasoning : ReasoningRecord) : Payload :=
  .object
    [("summary", .text reasoning.summary),
      ("decisions", .list (reasoning.decisions.map DecisionRecord.toPayload)),
      ("flaggedItems", .list (reasoning.flaggedItems.map FlagRecord.toPayload)),
      ("overallConfidence", .float reasoning.overallConfidence)]

def schema : Schema ReasoningRecord :=
  { title, read, toPayload }

/-- The record of the reasoning of a model. -/
def ofReasoning (reasoning : BriefReasoning) : Except Failure ReasoningRecord := do
  let decisions ← reasoning.decisions.mapM DecisionRecord.ofDecision
  let flaggedItems ← reasoning.flaggedItems.mapM FlagRecord.ofFlag
  Reading.built title <|
    ofFields (some (.text reasoning.summary)) (pure decisions) (pure flaggedItems)
      (some (.float reasoning.overallConfidence))

/-- The reasoning of a model, according to a record. -/
def toReasoning (reasoning : ReasoningRecord) : BriefReasoning :=
  { summary := reasoning.summary
    decisions := reasoning.decisions.map DecisionRecord.toDecision
    flaggedItems := reasoning.flaggedItems.map FlagRecord.toFlag
    overallConfidence := reasoning.overallConfidence }

end ReasoningRecord
end Appraisal
