import ClusterScheduler.Resource.Row
import ClusterScheduler.Config
import ClusterScheduler.Sorting.Drift

/-!
# Resource order

The inventory is numbered in the order of the `SCHEDULER_RESOURCE_ORDER` clause, a comma
separated list of `column [ASC|DESC]` keys. Two values of a column compare as integers when
both read as 64-bit integers, as text otherwise; a missing value comes first. Rows equal on
every key are ordered by external id. Since integers and text mix, this comparison need not be
transitive, so the sort is fixed too: `Sorting.sortBy`, which may also find the comparison
inconsistent and stop with a `Fault`.
-/

namespace ClusterScheduler

/-- One key of a resource order. -/
structure SortKey where
  column : String
  descending : Bool
  deriving DecidableEq, Repr

/-- An order on resource rows: keys, the first one deciding first. -/
structure ResourceOrder where
  keys : List SortKey
  deriving DecidableEq, Repr

namespace ResourceOrder

/-- Reads one clause item's words: a column, optionally followed by `asc` or `desc` in any
case. -/
def keyOf? : List (List Char) → Option SortKey
  | [c] => some ⟨String.ofList c, false⟩
  | [c, d] =>
    if Text.eqIgnoreAsciiCase d "asc".toList then some ⟨String.ofList c, false⟩
    else if Text.eqIgnoreAsciiCase d "desc".toList then some ⟨String.ofList c, true⟩
    else none
  | _ => none

/-- Reads a clause: items separated by commas, blank items skipped; a malformed item makes
the whole clause invalid. No item at all orders by `resource_id`. -/
def parse (clause : String) : Except ConfigError ResourceOrder := do
  let items := ((Text.splitOn ',' clause.toList).map Text.trim).filter (!·.isEmpty)
  let keys ← items.mapM fun t =>
    match keyOf? (Text.words t) with
    | some k => .ok k
    | none => .error (.invalidOrder clause)
  pure ⟨if keys.isEmpty then [⟨"resource_id", false⟩] else keys⟩

def compareValues : Option String → Option String → Ordering
  | some a, some b =>
    match Word.i64.parse a.toList, Word.i64.parse b.toList with
    | some x, some y => compare x y
    | _, _ => compare a b
  | a, b => compare a.isSome b.isSome

def compare (o : ResourceOrder) (a b : ResourceRow) : Ordering :=
  let decided := o.keys.findSome? fun k =>
    let c := compareValues (a.value k.column) (b.value k.column)
    let c := if k.descending then c.swap else c
    if c = .eq then none else some c
  decided.getD (Ord.compare a.id b.id)

def sort (o : ResourceOrder) (rows : List ResourceRow) : Except Fault (List ResourceRow) :=
  Sorting.sortBy (fun a b => o.compare a b == .lt) rows

end ResourceOrder

end ClusterScheduler
