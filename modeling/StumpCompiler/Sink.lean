import StumpCompiler.Fault

/-!
Writers, which take bytes, and how a text is written to one.
-/

namespace StumpCompiler

/-- Something that bytes can be written to. -/
class Writer (σ : Type) where
  /-- Offers bytes. Some of them are taken, from the first one on; the answer is how many. An offer
  that is interrupted is made again and has no answer of its own. -/
  offer : σ → List UInt8 → Except IoFault Nat × σ

/-- Offers bytes until all of them are taken. It is a fault if none is taken any more. -/
def writeAll {σ : Type} [Writer σ] (w : σ) : List UInt8 → Except IoFault Unit × σ
  | [] => (.ok (), w)
  | byte :: bytes =>
    match Writer.offer w (byte :: bytes) with
    | (.error fault, w) => (.error fault, w)
    | (.ok 0, w) => (.error .partialWrite, w)
    | (.ok (n + 1), w) => writeAll w (bytes.drop n)
termination_by bytes => bytes.length
decreasing_by
  rw [List.length_drop, List.length_cons]
  omega

/-- Holds bytes up to a limit. -/
structure Sink where
  capacity : Nat
  held : List UInt8
  deriving DecidableEq

namespace Sink

def ofCapacity (capacity : Nat) : Sink := ⟨capacity, []⟩

/-- As many bytes are taken as there is room for. -/
instance : Writer Sink where
  offer sink bytes :=
    let room := sink.capacity - sink.held.length
    (.ok (min room bytes.length), { sink with held := sink.held ++ bytes.take room })

end Sink

end StumpCompiler
