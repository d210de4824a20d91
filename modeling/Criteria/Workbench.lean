import Criteria.Config.Document
import Criteria.Filter.Json
import Criteria.Filter.Leaves
import Criteria.Filter.Render
import Criteria.Filter.Trace
import Criteria.Sort.Query

/-!
# Workbenches

On a workbench filters are put together step by step.  It holds the configuration
under which queries are read and a stack of filters.  A step that fails changes
neither.
-/

namespace Criteria

structure Workbench where
  config : Config := {}
  /-- The top comes first. -/
  stack : List Filter := []

namespace Workbench

inductive Step
  | configure (document : String)
  | readFilter (query : String)
  | readKeys (query : String)
  | place (filter : Filter)
  | load (document : String)
  | join (combinator : Combinator)
  /-- Assembles a chain from the topmost filters, the lowest of which is the first operand. -/
  | chain (combinators : List Combinator)
  | duplicate
  | swap
  | drop
  | compare
  | leaves
  | trace (reject : Option Filter.Token)
  /-- Wraps the top into a query and takes it through its document and back. -/
  | ship (source : String)

inductive Reply
  | config (config : Config)
  | keys (keys : List SortKey)
  | top (depth : Nat) (filter : Filter)
  | depth (depth : Nat)
  | compared (equal : Bool)
  | leaves (predicates : List Predicate)
  | trace (trace : Filter.Trace)
  /-- The document, and whether it reads back as the query it was written from. -/
  | shipped (document : String) (back : Except Json.Fault Bool)

inductive StepError
  | underflow
  | config (error : ConfigError)
  | query (error : QueryError)
  | blank (part : BlankPart)
  | document (fault : Json.Fault)
  deriving DecidableEq

/-- The bench with a filter on the top of `stack`, and what is shown of it. -/
def push (bench : Workbench) (stack : List Filter) (f : Filter) : Reply × Workbench :=
  (.top (stack.length + 1) f, { bench with stack := f :: stack })

def ship (source : String) (f : Filter) : Reply :=
  let query : FilterQuery := ⟨.dollarFilter, source, f⟩
  let document := Json.encode query
  .shipped document ((Json.decode document).map fun (back : FilterQuery) => back == query)

/-- Takes as many filters off a stack as a chain with these combinators has
operands. -/
def takeChain? (stack : List Filter) (combinators : List Combinator) :
    Option (Filter.Chain Filter × List Filter) :=
  let count := combinators.length + 1
  if stack.length < count then none
  else match (stack.take count).reverse with
    | [] => none
    | first :: rest => some (⟨first, combinators.zip rest⟩, stack.drop count)

def step (bench : Workbench) : Step → Except StepError (Reply × Workbench)
  | .configure document => do
    let config ← (Config.ofDocument document).mapError .config
    .ok (.config config, { bench with config })
  | .readFilter query => do
    let q ← (FilterQuery.parse bench.config query).mapError .query
    .ok (bench.push bench.stack q.filter)
  | .readKeys query => do
    let keys ← (SortKey.parse bench.config query).mapError .query
    .ok (.keys keys, bench)
  | .place f => do
    let f ← f.check.mapError .blank
    .ok (bench.push bench.stack f)
  | .load document => do
    let f ← (Json.decode document).mapError .document
    .ok (bench.push bench.stack f)
  | .join c =>
    match bench.stack with
    | right :: left :: stack => .ok (bench.push stack (.join left right c))
    | _ => .error .underflow
  | .chain combinators =>
    match takeChain? bench.stack combinators with
    | some (chain, stack) => .ok (bench.push stack (chain.assemble bench.config.chainShape))
    | none => .error .underflow
  | .duplicate =>
    match bench.stack with
    | f :: stack => .ok (bench.push (f :: stack) f)
    | [] => .error .underflow
  | .swap =>
    match bench.stack with
    | f :: g :: stack => .ok (bench.push (f :: stack) g)
    | _ => .error .underflow
  | .drop =>
    match bench.stack with
    | _ :: stack => .ok (.depth stack.length, { bench with stack })
    | [] => .error .underflow
  | .compare =>
    match bench.stack with
    | f :: g :: _ => .ok (.compared (f == g), bench)
    | _ => .error .underflow
  | .leaves =>
    match bench.stack with
    | f :: _ => .ok (.leaves f.leaves, bench)
    | [] => .error .underflow
  | .trace reject =>
    match bench.stack with
    | f :: _ => .ok (.trace (f.trace reject), bench)
    | [] => .error .underflow
  | .ship source =>
    match bench.stack with
    | f :: _ => .ok (ship source f, bench)
    | [] => .error .underflow

/-- The answers to several steps in turn. -/
def run (bench : Workbench) : List Step → List (Except StepError Reply)
  | [] => []
  | s :: steps =>
    match bench.step s with
    | .ok (reply, bench) => .ok reply :: bench.run steps
    | .error e => .error e :: bench.run steps

end Workbench
end Criteria
