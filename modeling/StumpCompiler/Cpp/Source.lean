import StumpCompiler.Cpp.Listing
import StumpCompiler.Journal
import StumpCompiler.Settings.Basic

/-!
The source: the table of classes and the body of `classify`, which adds up the votes of all
hypotheses and returns the class with the highest sum, the first of several. The identifiers of the
classes stand in the table alone; numbers are copied as the model has them.
-/

namespace StumpCompiler.Cpp

/-- The variable that holds the value of a feature under one of its spellings. -/
def valueIdentifier (column : String) : String :=
  "value" ++ column

/-- Adds one vote of a hypothesis to the sum of its class: the vote itself if the feature is above
the threshold, else its opposite. -/
def voteStatement (h : Hypothesis) (slot : Nat) (vote : String) : String :=
  "  votes[" ++ toString slot ++ "] += " ++ h.alpha ++ " * (" ++ h.threshold ++ " < " ++
    valueIdentifier h.feature.column ++ " ? " ++ vote ++ " : -(" ++ vote ++ "));"

/-- The vote statements of one hypothesis, in the order of the slots. -/
def hypothesisLines (h : Hypothesis) : List String :=
  h.votes.zipIdx.map fun (vote, slot) => voteStatement h slot vote

def descriptorLine (f : Feature) : String :=
  "  " ++ f.descriptorType ++ " " ++ f.variableName ++ ";"

def valueLine (f : Feature) : String :=
  "  double " ++ valueIdentifier f.columnName ++ " = " ++ f.variableName ++
    ".describe(objs, subject);"

def aliasLine (r : FeatureRef) : String :=
  "  double " ++ valueIdentifier r.column ++ " = " ++ valueIdentifier r.feature.columnName ++ ";"

/-- The table of classes, and the head of the function. -/
def headLines (m : Model) (s : Settings) : List String := [
  "#include \"" ++ s.headerFile ++ "\"",
  "static int classes[" ++ toString m.classCount ++ "] = \x7b" ++
    ", ".intercalate m.classes.ids ++ "\x7d;",
  "int",
  "classify(objs_t &objs, size_t subject)",
  "\x7b"]

/-- The descriptors, their values, and the aliases of the values. -/
def prologueLines (m : Model) : List String :=
  Feature.all.map descriptorLine ++ Feature.all.map valueLine ++ m.aliases.map aliasLine

/-- The sums of the votes, one for each class. -/
def voteLines (m : Model) : List String :=
  ["  double votes[" ++ toString m.classCount ++ "] = \x7b0\x7d;", ""] ++
    m.hypotheses.flatMap hypothesisLines

/-- The search for the highest sum, and the end of the function. -/
def scanLines (m : Model) : List String := [
  "  double max = votes[0];",
  "  size_t best = 0;",
  "  for (size_t i = 0; i < " ++ toString m.classCount ++ "; ++i)",
  "    if (max < votes[i]) \x7b",
  "      max = votes[i];",
  "      best = i;",
  "    \x7d",
  "  return classes[best];",
  "\x7d"]

def sourceLines (m : Model) (s : Settings) : List String :=
  headLines m s ++ prologueLines m ++ voteLines m ++ scanLines m

def sourceListing (m : Model) (s : Settings) : Listing :=
  Listing.empty.lines (sourceLines m s)

def source (m : Model) (s : Settings) : String :=
  (sourceListing m s).text

/-- What the journal says of rendering the source. -/
def sourceRecord (m : Model) (s : Settings) : Record where
  severity := .debug
  source := "stumpgen::codegen::source"
  message := "rendered " ++ toString (sourceListing m s).count ++ " lines for " ++
    toString m.hypothesisCount ++ " hypotheses x " ++ toString m.classCount ++ " classes"

end StumpCompiler.Cpp
