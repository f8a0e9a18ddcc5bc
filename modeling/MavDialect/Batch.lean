-- Several dialects compiled together, with the fingerprints of all their messages.
import MavDialect.Compile
import MavDialect.Source

namespace MavDialect

structure Batch where
  dialects : List Dialect
  fingerprints : Fingerprints

/-- The first dialect of a batch that cannot be compiled. -/
structure BatchError where
  dialect : String
  cause : CompileError
  deriving Repr, DecidableEq

namespace BatchError

def message (e : BatchError) : String := "Dialect " ++ e.dialect ++ ": " ++ e.cause.message

def unknownType? (e : BatchError) : Option UnknownType := e.cause.unknownType?

end BatchError

/-- Compiles every source on its own.  One that fails does not touch the others. -/
def compileEach (options : Options) (sources : List Source) :
    List (Except CompileError Dialect) :=
  sources.map fun s => compile options s.name s.root

namespace Batch

/-- All dialects, or the first failure under its name. -/
def gather : List (String × Except CompileError Dialect) → Except BatchError (List Dialect)
  | [] => .ok []
  | (name, .error cause) :: _ => .error ⟨name, cause⟩
  | (_, .ok d) :: rest => (gather rest).map (d :: ·)

/-- Compiles all sources, then reports how the batch ended. -/
def traced (options : Options) (sources : List Source) : Traced BatchError Batch :=
  let runs := sources.map fun s => (s.name, Compile.dialect options s.name s.root)
  let log := runs.flatMap (·.2.log)
  match gather (runs.map fun (name, run) => (name, run.result)) with
  | .error e => ⟨log ++ [.dialectFailed e.dialect e.cause], .error e⟩
  | .ok dialects =>
    let fingerprints := Fingerprints.ofDialects dialects
    ⟨log ++ [.batchCompiled dialects.length fingerprints.size], .ok ⟨dialects, fingerprints⟩⟩

end Batch

/-- Compiles a batch, or names its first dialect that cannot be compiled. -/
def compileBatch (options : Options) (sources : List Source) : Except BatchError Batch :=
  (Batch.traced options sources).result

end MavDialect
