import Mathlib.Logic.Function.Basic
import Onadata.Lib.Run

/-!
# `Onadata.Lib.ResourceLedger`: resources of a service and the records of them

A program makes resources in a service and keeps a record of each, which it retires with the
resource. The two sides change one after the other, and the second change can fail. A resource is
orphaned when it is live and no record is open for it.

`Ledger.orphan_apply` states what orphans a resource: that it is made and not recorded.
`Ledger.run_iff` is the rule for runs.
-/

set_option autoImplicit false

namespace Onadata.Lib

/-- The records, each with its resource and whether it is retired, and the resources, each with
whether it is live. -/
@[ext]
structure Ledger (Row Resource : Type) where
  records : Row → Option (Resource × Bool)
  resources : Resource → Option Bool

/-- What one step does: nothing, or a resource is made and not recorded, made and removed, or made
and recorded, or it is removed with its record, or without it. -/
inductive LedgerChange (Row Resource : Type)
  | same
  | leak (resource : Resource)
  | discard (resource : Resource)
  | record (row : Row) (resource : Resource)
  | retire (row : Row) (resource : Resource)
  | release (row : Row) (resource : Resource)

namespace Ledger

variable {Row Resource : Type} [DecidableEq Row] [DecidableEq Resource]

/-- The ledger after a change. -/
def apply (l : Ledger Row Resource) : LedgerChange Row Resource → Ledger Row Resource
  | .same => l
  | .leak resource => { l with resources := Function.update l.resources resource (some true) }
  | .discard resource => { l with resources := Function.update l.resources resource (some false) }
  | .record row resource => {
      records := Function.update l.records row (some (resource, false))
      resources := Function.update l.resources resource (some true) }
  | .retire row resource => {
      records := Function.update l.records row (some (resource, true))
      resources := Function.update l.resources resource (some false) }
  | .release _ resource =>
      { l with resources := Function.update l.resources resource (some false) }

/-- A new resource and a new record are new, and a record that is retired is open. -/
def Allows (l : Ledger Row Resource) : LedgerChange Row Resource → Prop
  | .same => True
  | .leak resource => l.resources resource = none
  | .discard resource => l.resources resource = none
  | .record row resource => l.resources resource = none ∧ l.records row = none
  | .retire row resource => l.records row = some (resource, false)
  | .release row resource => l.records row = some (resource, false)

/-- The resource is live, and no record is open for it. -/
def Orphan (l : Ledger Row Resource) (resource : Resource) : Prop :=
  l.resources resource = some true ∧ ∀ row, l.records row ≠ some (resource, false)

/-- Each record is of a resource of the service, no two are of the same one, and the resource of a
retired record is not live. -/
structure Consistent (l : Ledger Row Resource) : Prop where
  known : ∀ row resource retired, l.records row = some (resource, retired) →
    l.resources resource ≠ none
  distinct : ∀ row row' resource retired retired', l.records row = some (resource, retired) →
    l.records row' = some (resource, retired') → row = row'
  retired : ∀ row resource, l.records row = some (resource, true) →
    l.resources resource = some false

variable {l : Ledger Row Resource} {change : LedgerChange Row Resource}

/-- A change keeps the ledger consistent. -/
theorem Consistent.apply (hl : l.Consistent) (hchange : l.Allows change) :
    (l.apply change).Consistent := by
  obtain ⟨known, distinct, retired⟩ := hl
  cases change with
  | same => exact ⟨known, distinct, retired⟩
  | _ => constructor <;> simp only [Ledger.apply, Function.update_apply] <;> grind [Allows]

/-- A change orphans a resource only when it makes the resource and does not record it. No change
gives an orphan a record. -/
theorem orphan_apply (hl : l.Consistent) (hchange : l.Allows change) {resource : Resource} :
    (l.apply change).Orphan resource ↔ l.Orphan resource ∨ change = .leak resource := by
  have hknown := hl.known
  unfold Orphan
  cases change with
  | same => simp [Ledger.apply]
  | _ => simp only [Ledger.apply, Function.update_apply]; grind [Allows]

/-- Along a run, no resource is orphaned at the end when none was at the start and no step leaks
one. -/
theorem run_iff {State Label : Type} {step guard : State → Label → State → Prop}
    (view : State → Ledger Row Resource)
    (hstep : ∀ s label s', step s label s' → (view s).Consistent →
      ∃ change, (view s).Allows change ∧ view s' = (view s).apply change ∧
        (guard s label s' ↔ ∀ resource, change ≠ .leak resource))
    {s s' : State} {labels : List Label} (hs : (view s).Consistent) (hrun : Run step s labels s') :
    (view s').Consistent ∧ ((∀ resource, ¬ (view s').Orphan resource) ↔
      (∀ resource, ¬ (view s).Orphan resource) ∧ Run (Guarded step guard) s labels s') := by
  induction hrun with
  | nil s => exact ⟨hs, ⟨fun h => ⟨h, .nil s⟩, fun h => h.1⟩⟩
  | @cons s mid s' label labels hfirst hrest ih =>
      obtain ⟨change, hallows, hmid, hguard⟩ := hstep s label mid hfirst hs
      obtain ⟨hs', hiff⟩ := ih (hmid ▸ hs.apply hallows)
      refine ⟨hs', fun hnone => ?_, fun ⟨hnone, hguarded⟩ => ?_⟩
      · obtain ⟨hmidNone, hrun⟩ := hiff.mp hnone
        rw [hmid] at hmidNone
        -- An orphan of the first state, or of the first step, is one after that step.
        refine ⟨fun r horphan => hmidNone r ((orphan_apply hs hallows).mpr (.inl horphan)), ?_⟩
        refine .cons ⟨hfirst, hguard.mpr fun r hleak => ?_⟩ hrun
        exact hmidNone r ((orphan_apply hs hallows).mpr (.inr hleak))
      · -- The guarded run can go through other states, each of them without orphans.
        refine (hguarded.invariant (fun s => (view s).Consistent ∧ ∀ r, ¬ (view s).Orphan r)
          (fun s label s' _ hguarded hs => ?_) ⟨hs, hnone⟩).2
        obtain ⟨change, hallows, hview, hguard⟩ := hstep s label s' hguarded.1 hs.1
        refine hview ▸ ⟨hs.1.apply hallows, fun r horphan => ?_⟩
        rcases (orphan_apply hs.1 hallows).mp horphan with hold | hleak
        · exact hs.2 r hold
        · exact hguard.mp hguarded.2 r hleak

end Ledger
end Onadata.Lib
