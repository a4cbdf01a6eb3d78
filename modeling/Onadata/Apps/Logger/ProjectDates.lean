import Onadata.Lib.PyDict
import Onadata.Lib.ThreadPool

/-!
# `Onadata.Apps.Logger.ProjectDates`: the modification times of projects

`update_project_date_modified` of `apps/logger/models/instance.py` and
`apply_project_date_modified_async` of `apps/logger/tasks.py`, which share the cached dict
under `PROJECT_DATE_MODIFIED_CACHE`.

A call is a thread. Its program counter names the cache or database operation that comes
next, and each operation is one atomic step.

Left out: failures and expiry of the cache.
-/

set_option autoImplicit false

namespace Onadata

open Onadata.Lib

/-- A project and a time. -/
abbrev ProjectTime := Nat × Nat

/-- The cached dict, `none` if the key is missing, and the times that were written to
projects, in order. -/
structure ProjectDateStore where
  cached : Option (List ProjectTime) := none
  applied : List ProjectTime := []
  deriving DecidableEq, Repr

/-- `safe_cache_get(PROJECT_DATE_MODIFIED_CACHE, {})`. -/
def ProjectDateStore.projectIds (store : ProjectDateStore) : List ProjectTime :=
  store.cached.getD []

/-- The next operation of `update_project_date_modified`. `projectIds` is the dict that the
call read. -/
inductive UpdateDatePc
  | get
  | set (projectIds : List ProjectTime)
  | done
  deriving DecidableEq, Repr

/-- The next operation of `apply_project_date_modified_async`. `rest` are the items that are
left. -/
inductive ApplyDatePc
  | get
  | update (item : ProjectTime) (rest : List ProjectTime)
  | delete
  | done
  deriving DecidableEq, Repr

/-- A call in progress. An update has the project of its submission and the time of the
submission's modification. -/
inductive ProjectDateThread
  | update (recorded : ProjectTime) (pc : UpdateDatePc)
  | apply (pc : ApplyDatePc)
  deriving DecidableEq, Repr

/-- The loop of `apply_project_date_modified_async` over the items that are left. -/
def ApplyDatePc.loop : List ProjectTime → ApplyDatePc
  | [] => .delete
  | item :: rest => .update item rest

/-- One operation of a call. -/
def projectDateStep (store : ProjectDateStore) :
    ProjectDateThread → ProjectDateStore × ProjectDateThread
  | .update recorded .get => (store, .update recorded (.set store.projectIds))
  | .update recorded (.set projectIds) =>
      ({ store with cached := some (Dict.insert projectIds recorded.1 recorded.2) },
        .update recorded .done)
  | .update recorded .done => (store, .update recorded .done)
  | .apply .get =>
      (store, .apply (if store.projectIds = [] then .done else .loop store.projectIds))
  | .apply (.update item rest) =>
      ({ store with applied := store.applied ++ [item] }, .apply (.loop rest))
  | .apply .delete => ({ store with cached := none }, .apply .done)
  | .apply .done => (store, .apply .done)

/-- The steps of a call. -/
def ProjectDateStep (store : ProjectDateStore) (thread : ProjectDateThread)
    (store' : ProjectDateStore) (thread' : ProjectDateThread) : Prop :=
  (store', thread') = projectDateStep store thread

/-- The calls before their first operation. -/
def startProjectDates (store : ProjectDateStore) (updates : List ProjectTime) (applies : Nat) :
    Pool ProjectDateStore ProjectDateThread :=
  ⟨store, updates.map (.update · .get) ++ List.replicate applies (.apply .get)⟩

/-- The call has returned. -/
def ProjectDateThread.isFinished : ProjectDateThread → Bool
  | .update _ pc => pc = .done
  | .apply pc => pc = .done

end Onadata
