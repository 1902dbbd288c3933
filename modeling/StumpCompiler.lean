import StumpCompiler.Main
import StumpCompiler.Feature.Json
import StumpCompiler.Workspace
import StumpCompiler.Proofs.Cpp.Evaluation
import StumpCompiler.Proofs.Cpp.Lines
import StumpCompiler.Proofs.Feature
import StumpCompiler.Proofs.Cpp.SourceTokens
import StumpCompiler.Proofs.Cpp.SourceSyntax
import StumpCompiler.Proofs.Cpp.Decision
import StumpCompiler.Proofs.Cpp.SourceMeaning
import StumpCompiler.Proofs.Except
import StumpCompiler.Proofs.Text.Cut
import StumpCompiler.Proofs.Reader.Grammar
import StumpCompiler.Proofs.Text.Scan
import StumpCompiler.Proofs.Xml.Markup
import StumpCompiler.Proofs.Xml.Declaration
import StumpCompiler.Proofs.Xml.Tag
import StumpCompiler.Proofs.Xml.Content
import StumpCompiler.Proofs.Xml.Document
import StumpCompiler.Proofs.Encoding
import StumpCompiler.Proofs.Reader.RoundTrip
import StumpCompiler.Proofs.Store.Path
import StumpCompiler.Proofs.Store.Resolve
import StumpCompiler.Proofs.Store.Files
import StumpCompiler.Proofs.Store.Later
import StumpCompiler.Proofs.Host
import StumpCompiler.Proofs.Generation
import StumpCompiler.Proofs.Trial
import StumpCompiler.Proofs.Failure
import StumpCompiler.Proofs.ModelFile
import StumpCompiler.Proofs.Writing
import StumpCompiler.Proofs.Repetition
import StumpCompiler.Proofs.ArtifactNames
import StumpCompiler.Proofs.Sink
import StumpCompiler.Proofs.Emission
import StumpCompiler.Proofs.Cpp.SourceLines
import StumpCompiler.Proofs.Cpp.Recovery
import StumpCompiler.Proofs.Cpp.Statements
import StumpCompiler.Proofs.Cpp.Declarations
import StumpCompiler.Proofs.Xml.Tree
import StumpCompiler.Proofs.Reader.Places
import StumpCompiler.Proofs.Reader.Nesting
import StumpCompiler.Proofs.Reader.Sequence
import StumpCompiler.Proofs.Reader.Appending
import StumpCompiler.Proofs.Reader.Foreign
import StumpCompiler.Proofs.Agreement
import StumpCompiler.Proofs.Text.Grammar
import StumpCompiler.Proofs.Json
import StumpCompiler.Proofs.Toml.Quoted
import StumpCompiler.Proofs.Toml.Document
import StumpCompiler.Proofs.Store.Devices
import StumpCompiler.Proofs.Settings.Files
import StumpCompiler.Proofs.Text.Alike
import StumpCompiler.Proofs.Xml.Alike.Markup
import StumpCompiler.Proofs.Xml.Alike.Content
import StumpCompiler.Proofs.Xml.Alike.Document
import StumpCompiler.Proofs.Reader.Encodings
import StumpCompiler.Proofs.Xml.Front
import StumpCompiler.Proofs.Reader.ByteOrderMark
import StumpCompiler.Proofs.Settings.Layers
import StumpCompiler.Proofs.Cpp.Locality
import StumpCompiler.Proofs.Cpp.Guard
import StumpCompiler.Proofs.Cpp.Header
import StumpCompiler.Proofs.Cpp.Listing
