/-!
The measurements a stump may look at, and their names in a model and in the generated code.
-/

namespace StumpCompiler

/-- A measurement of the subject that the generated classifier can compute. -/
inductive Feature where
  /-- Height over width of the bounding box. -/
  | aspectRatio
  /-- Alignment of the top edge with the neighbours. -/
  | topPosition
  /-- Alignment of the bottom edge with the neighbours. -/
  | bottomPosition
  deriving DecidableEq

namespace Feature

/-- In the order in which the generated code declares them. -/
def all : List Feature := [aspectRatio, topPosition, bottomPosition]

/-- The name a model's column gives the feature. -/
def columnName : Feature → String
  | aspectRatio => "AspectRatio"
  | topPosition => "TopPosition"
  | bottomPosition => "BottomPosition"

/-- The variable that holds the descriptor in the generated code. -/
def variableName : Feature → String
  | aspectRatio => "aspectRatio"
  | topPosition => "topPosition"
  | bottomPosition => "bottomPosition"

/-- The class of the descriptor in the generated code. -/
def descriptorType : Feature → String
  | aspectRatio => "AspectRatioFeature"
  | topPosition => "TopPositionFeature"
  | bottomPosition => "BottomPositionFeature"

/-- A column may be spelled by the column name or by the variable name, letter by letter. -/
def ofColumn? (column : String) : Option Feature :=
  all.find? fun f => f.columnName == column || f.variableName == column

end Feature

/-- A feature as a model names it. -/
structure FeatureRef where
  feature : Feature
  /-- The column text as it is written in the model. -/
  column : String
  deriving DecidableEq

namespace FeatureRef

def resolve? (column : String) : Option FeatureRef :=
  (Feature.ofColumn? column).map fun feature => ⟨feature, column⟩

/-- The column is spelled by its column name. -/
def isCanonical (r : FeatureRef) : Bool :=
  r.column == r.feature.columnName

end FeatureRef

end StumpCompiler
