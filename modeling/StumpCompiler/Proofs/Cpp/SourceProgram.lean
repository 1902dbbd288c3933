import StumpCompiler.Cpp.Source
import StumpCompiler.Proofs.Cpp.Syntax

/-! The program of the generated source: what its text is read as. -/

namespace StumpCompiler.Cpp

/-- The literal of a number with its sign. -/
def signedExpr (s : String) : Expr :=
  match s.toList with
  | '+' :: cs => .positive (.literal (String.ofList cs))
  | '-' :: cs => .negative (.literal (String.ofList cs))
  | _ => .literal s

def choiceExpr (threshold column vote : String) : Expr :=
  .choice (.less (signedExpr threshold) (.name column)) (signedExpr vote)
    (.negative (signedExpr vote))

/-- The vote of a hypothesis for one class, with its weight. -/
def stumpExpr (h : Hypothesis) (vote : String) : Expr :=
  .product (signedExpr h.alpha)
    (choiceExpr h.threshold (valueIdentifier h.feature.column) vote)

def classTable (m : Model) : Statement :=
  .array "int" "classes" (toString m.classCount) (m.classes.ids.map signedExpr)

def declareDescriptor (f : Feature) : Statement :=
  .object f.descriptorType f.variableName

def declareValue (f : Feature) : Statement :=
  .variable "double" (valueIdentifier f.columnName)
    (.call f.variableName "describe" ["objs", "subject"])

def declareAlias (r : FeatureRef) : Statement :=
  .variable "double" (valueIdentifier r.column) (.name (valueIdentifier r.feature.columnName))

def prologue (m : Model) : List Statement :=
  Feature.all.map declareDescriptor ++ Feature.all.map declareValue ++ m.aliases.map declareAlias

/-- All sums are zero. -/
def declareSums (m : Model) : Statement :=
  .array "double" "votes" (toString m.classCount) [.literal "0"]

def addVote (h : Hypothesis) (slot : ℕ) (vote : String) : Statement :=
  .add (.element "votes" (.literal (toString slot))) (stumpExpr h vote)

def addVotes (h : Hypothesis) : List Statement :=
  h.votes.zipIdx.map fun (vote, slot) => addVote h slot vote

def declareMax : Statement :=
  .variable "double" "max" (.element "votes" (.literal "0"))

def declareBest : Statement :=
  .variable "size_t" "best" (.literal "0")

def keepMax : Statement :=
  .assign (.name "max") (.element "votes" (.name "i"))

def keepBest : Statement :=
  .assign (.name "best") (.name "i")

/-- A sum that is larger than the largest so far is kept with its place. -/
def keepLarger : Statement :=
  .when (.less (.name "max") (.element "votes" (.name "i"))) (.block [keepMax, keepBest])

def scanLoop (m : Model) : Statement :=
  .count "i" "0" (toString m.classCount) keepLarger

def sourceProgram (m : Model) : Program where
  tables := [classTable m]
  name := "classify"
  parameters := ["objs", "subject"]
  body := prologue m ++ (declareSums m :: m.hypotheses.flatMap addVotes) ++
    [declareMax, declareBest, scanLoop m]
  result := .element "classes" (.name "best")

end StumpCompiler.Cpp
