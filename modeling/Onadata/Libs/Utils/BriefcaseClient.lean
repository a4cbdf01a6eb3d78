import Onadata.Lib.PyDict

/-!
# `Onadata.Libs.Utils.BriefcaseClient`: submissions are pulled page by page

`BriefcaseClient.download_instances` of `libs/utils/briefcase_client.py`, and the list of the
submissions that it asks for: `filter_queryset` and `_query_optimization_fence` of
`apps/api/viewsets/briefcase_viewset.py`.

A page is served by one of two query paths. The second one selects the rows of the page by their
primary keys and does not order them, so that they come back in any order. The server takes the
cursor from the last row of the page, and the client remembers the cursor that it followed last, for
all the forms that it pulls.

Left out: the search for the form, the text of the response, which the client reads as it was
written, and the download of each submission that is listed.
-/

set_option autoImplicit false

namespace Onadata

open Onadata.Lib

/-! ### The server -/

/-- What the list reads of a row of `Instance`. -/
structure BriefcaseInstance where
  pk : Nat
  uuid : String
  xform : Nat
  deletedAt : Option Nat := none
  mediaAllReceived : Option Bool := some true
  deriving DecidableEq, Repr

/-- The forms, with whether they are encrypted, and the submissions in the order of their primary
keys, which start at one. -/
structure BriefcaseStore where
  forms : List (Nat × Bool)
  instances : List BriefcaseInstance
  ordered : instances.Pairwise fun row row' => row.pk < row'.pk
  pk_pos : ∀ row ∈ instances, 0 < row.pk

/-- An order in which the database gives rows that are not ordered. -/
structure RowOrder where
  rows : List BriefcaseInstance → List BriefcaseInstance
  perm : ∀ instances, (rows instances).Perm instances

/-- How a page is served. -/
inductive QueryPath
  | ordered
  | optimizationFence (order : RowOrder)

namespace BriefcaseStore

variable (store : BriefcaseStore)

/-- `xform.encrypted`. -/
def encrypted (xform : Nat) : Bool :=
  Dict.get? store.forms xform = some true

/-- The submissions of the form that are listed at all, `order_by("pk")`. -/
def liveInstances (xform : Nat) : List BriefcaseInstance :=
  store.instances.filter fun row => row.xform = xform && row.deletedAt = none &&
    (!store.encrypted xform || row.mediaAllReceived = some true)

/-- `instances.filter(pk__gt=cursor)`, if there is a cursor other than zero. -/
def instancesAfter (xform cursor : Nat) : List BriefcaseInstance :=
  if cursor ≠ 0 then (store.liveInstances xform).filter fun row => cursor < row.pk
  else store.liveInstances xform

/-- The rows of a page. Without a number of entries it has them all. -/
def page (path : QueryPath) (xform cursor numEntries : Nat) : List BriefcaseInstance :=
  let instances := store.instancesAfter xform cursor
  if numEntries = 0 then instances
  else match path with
    | .ordered => instances.take numEntries
    | .optimizationFence order => order.rows (instances.take numEntries)

/-- `filter_queryset`: the rows of a page and the resumption cursor. -/
def filterQueryset (path : QueryPath) (xform cursor numEntries : Nat) :
    List BriefcaseInstance × Nat :=
  let instances := store.page path xform cursor numEntries
  match instances.getLast? with
  | some last => (instances, last.pk)
  | none => (instances, if cursor ≠ 0 then cursor else 0)

end BriefcaseStore

/-! ### The client -/

/-- The client. `resumptionCursor` is the number in the text that it followed last; at first it is
the number zero itself, which no text equals. `requests` counts its list requests. -/
structure BriefcaseClient where
  resumptionCursor : Option Nat := none
  requests : Nat := 0
  deriving DecidableEq, Repr

/-- The default of `num_entries`. -/
def defaultNumEntries : Nat := 100

/-- `download_instances`, with the query path that serves each list request: the client after it and
the submissions that were listed to it. -/
def downloadInstances (store : BriefcaseStore) (paths : Nat → QueryPath) (xform : Nat) :
    Nat → BriefcaseClient → Nat → Nat → Option (BriefcaseClient × List BriefcaseInstance)
  | 0, _, _, _ => none
  | fuel + 1, client, cursor, numEntries => do
      let (instances, resumptionCursor) :=
        store.filterQueryset (paths client.requests) xform cursor numEntries
      let client := { client with requests := client.requests + 1 }
      if client.resumptionCursor ≠ some resumptionCursor then
        let (client, rest) ← downloadInstances store paths xform fuel
          { client with resumptionCursor := some resumptionCursor } resumptionCursor
          defaultNumEntries
        return (client, instances ++ rest)
      else return (client, instances)

/-- Forms are pulled one after another: what was listed for each. A pull names its form and the
number of entries of its first page. -/
def pullForms (store : BriefcaseStore) (paths : Nat → QueryPath) (fuel : Nat) :
    BriefcaseClient → List (Nat × Nat) → Option (BriefcaseClient × List (List BriefcaseInstance))
  | client, [] => some (client, [])
  | client, (xform, numEntries) :: pulls => do
      let (client, listed) ← downloadInstances store paths xform fuel client 0 numEntries
      let (client, rest) ← pullForms store paths fuel client pulls
      return (client, listed :: rest)

end Onadata
