import StumpCompiler.Cpp.Header
import StumpCompiler.Cpp.Source
import StumpCompiler.Sink

/-!
The two artifacts, their texts, and writing them to any writer.
-/

namespace StumpCompiler

inductive Artifact where
  | header
  | source
  deriving DecidableEq

namespace Artifact

/-- In the order in which they are written. -/
def all : List Artifact := [header, source]

def name : Artifact → String
  | header => "Header"
  | source => "Source"

def render (a : Artifact) (s : Settings) (m : Model) : String :=
  match a with
  | header => Cpp.header s
  | source => Cpp.source m s

/-- What the journal says while an artifact is rendered. -/
def renderRecords (a : Artifact) (s : Settings) (m : Model) : List Record :=
  match a with
  | header => []
  | source => [Cpp.sourceRecord m s]

def path (a : Artifact) (s : Settings) : String :=
  match a with
  | header => s.headerPath
  | source => s.sourcePath

end Artifact

/-- The bytes of a text. -/
def bytesOf (text : String) : List UInt8 :=
  Text.Utf8.encode text.toList

section Emit

variable {σ : Type} [Writer σ]

/-- Renders an artifact and writes it. -/
def Artifact.emit (a : Artifact) (s : Settings) (m : Model) (w : σ) : Except IoFault Unit × σ :=
  writeAll w (bytesOf (a.render s m))

/-- Writes the header, for which no model is needed. -/
def emitHeader (s : Settings) (w : σ) : Except IoFault Unit × σ :=
  writeAll w (bytesOf (Cpp.header s))

def emitSource (m : Model) (s : Settings) (w : σ) : Except IoFault Unit × σ :=
  Artifact.source.emit s m w

end Emit

/-- Both artifacts as texts. -/
structure Rendered where
  header : String
  source : String
  deriving DecidableEq

namespace Rendered

def empty : Rendered := ⟨"", ""⟩

def text (r : Rendered) : Artifact → String
  | .header => r.header
  | .source => r.source

def set (r : Rendered) (a : Artifact) (text : String) : Rendered :=
  match a with
  | .header => { r with header := text }
  | .source => { r with source := text }

end Rendered

end StumpCompiler
