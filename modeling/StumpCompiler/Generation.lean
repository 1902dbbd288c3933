import StumpCompiler.Artifact
import StumpCompiler.Host
import StumpCompiler.Reader

/-!
A whole run: a model is read, both artifacts are rendered, and only then is anything written.
-/

namespace StumpCompiler

/-- What a run has written. -/
structure Report where
  headerPath : String
  sourcePath : String
  classCount : Nat
  hypothesisCount : Nat
  voteStatementCount : Nat
  deriving DecidableEq

namespace Report

def ofModel (s : Settings) (model : Model) : Report where
  headerPath := s.headerPath
  sourcePath := s.sourcePath
  classCount := model.classCount
  hypothesisCount := model.hypothesisCount
  voteStatementCount := model.voteStatementCount

end Report

namespace Generation

def source : String := "stumpgen::generator"

def writerSource : String := "stumpgen::io::artifact"

/-- What the journal says of a model that a run has read. -/
def modelRecords (path : String) (model : Model) : List Record :=
  ⟨.info, source, path ++ ": " ++ toString model.classCount ++ " classes, " ++
    toString model.hypothesisCount ++ " weak hypotheses"⟩ ::
    model.usage.map fun (f, n) =>
      ⟨.debug, source, "feature " ++ f.columnName ++ " used by " ++ toString n ++ " hypotheses"⟩

variable {m : Type → Type} [Monad m] [Host m]

/-- Makes the output directory unless something is there. The empty path needs no directory. -/
def ensureDirectory (path : String) : ExceptT Fault m Unit := do
  if path = "" || (← (Host.has path : m Bool)) then return ()
  let result ← (Host.makeDirectories path : m (Except IoFault Unit))
  ExceptT.mk (pure (result.mapError .io))
  (Host.note ⟨.debug, writerSource, "created output directory " ++ path⟩ : m Unit)

def writeFile (path : String) (bytes : List UInt8) : ExceptT Fault m Unit := do
  let result ← (Host.write path bytes : m (Except IoFault Unit))
  ExceptT.mk (pure (result.mapError .io))
  (Host.note ⟨.info, writerSource,
    "wrote " ++ path ++ " (" ++ toString bytes.length ++ " bytes)"⟩ : m Unit)

/-- Renders one more artifact. -/
def renderNext (s : Settings) (model : Model) (done : Rendered) (a : Artifact) : m Rendered := do
  let text := a.render s model
  Host.noteAll (a.renderRecords s model)
  Host.note ⟨.debug, source, "rendered " ++ a.name ++ " artifact: " ++
    toString (bytesOf text).length ++ " bytes"⟩
  return done.set a text

def render (s : Settings) (model : Model) : m Rendered :=
  Artifact.all.foldlM (renderNext s model) .empty

/-- Renders and writes both artifacts of a model. -/
def write (s : Settings) (model : Model) : ExceptT Fault m Report := do
  let rendered ← (render s model : m Rendered)
  ensureDirectory s.outputDir
  Artifact.all.forM fun a => writeFile (a.path s) (bytesOf (rendered.text a))
  return .ofModel s model

/-- Reads the model of a file. -/
def readModel (path : String) : ExceptT Fault m Model := do
  let content ← (Host.read path : m (Except IoFault (List UInt8)))
  match content with
  | .error fault => throw (.io fault)
  | .ok bytes =>
    (Host.noteAll (Reader.byteRecords path bytes) : m Unit)
    ExceptT.mk (pure (Reader.ofBytes bytes))

/-- Makes both artifacts of the model in a file, if the settings are accepted. -/
def run (s : Settings) (path : String) : ExceptT Fault m Report := do
  let s ← ExceptT.mk (pure s.validate)
  let model ← readModel path
  (Host.noteAll (modelRecords path model) : m Unit)
  write s model

end Generation

end StumpCompiler
