import Onadata.Apps.Api.Viewsets.BulkDelete
import Onadata.Lib.Run

/-!
# `Onadata.Proofs.Apps.Api.DeletingSubmissions`: a deletion that was accepted

All requests on a form share one cache entry. A request puts its ids in the place of those of the
earlier ones, and a task that ends deletes the entry, whatever ids it has by then.

`hidden_run_iff`: in a run, no listing has a submission that an answered request named, if and only
if each request names all the submissions that are still to be deleted for the answered ones, and
no task ends before they are deleted (`CoversDeletions`).
-/

set_option autoImplicit false

namespace Onadata

open Onadata.Lib

namespace DeletingForm

variable {s s' : DeletingForm}

/-- A step. A request that is refused changes nothing. The task of a request can run before the
request has recorded its ids. -/
inductive DeletionAction
  | request (request : DestroyRequest)
  | record (started : Nat)
  | deleteRows (task : Nat)
  | deleteEntry

/-- What a step does. -/
def DeletionStep (enablePermanentDelete : Bool) (s : DeletingForm) (action : DeletionAction)
    (s' : DeletingForm) : Prop :=
  match action with
  | .request request =>
      match destroyIds enablePermanentDelete request with
      | .ok instanceIds => s' = s.delay instanceIds
      | .error _ => s' = s
  | .record i => ∃ instanceIds, s.started[i]? = some instanceIds ∧ s' = s.record i instanceIds
  | .deleteRows i => ∃ instanceIds, s.tasks[i]? = some instanceIds ∧ s' = s.deleteRows i instanceIds
  | .deleteEntry => 0 < s.finishing ∧ s' = s.deleteEntry

/-- An answered request named the submission. -/
def Named (s : DeletingForm) (pk : Nat) : Prop :=
  ∃ instanceIds ∈ s.answered, pk ∈ instanceIds

/-- No listing has a submission that an answered request named. -/
def Hidden (s : DeletingForm) : Prop :=
  ∀ pk, s.Named pk → pk ∉ s.listed

/-- The step leaves the submissions hidden. -/
def LeavesHidden (_ : DeletingForm) (_ : DeletionAction) (s' : DeletingForm) : Prop :=
  s'.Hidden

/-- What is asked of a step. A request names the submissions that the answered ones named and that
are not deleted yet; when a task deletes the entry, there are none. -/
def CoversDeletions (s : DeletingForm) (action : DeletionAction) (_ : DeletingForm) : Prop :=
  match action with
  | .record i => ∀ pk ∈ s.live, s.Named pk → ∀ ids, s.started[i]? = some ids → pk ∈ ids
  | .deleteEntry => ∀ pk ∈ s.live, ¬ s.Named pk
  | .request _ | .deleteRows _ => True

/-- A listing has the submissions that are not deleted and not in the entry. -/
theorem mem_listed_iff {pk : Nat} : pk ∈ s.listed ↔ pk ∈ s.live ∧ pk ∉ s.excludedIds := by
  unfold listed
  rw [List.mem_filter]
  simp

/-- The submissions are hidden if the entry has those that are not deleted yet. -/
theorem hidden_iff : s.Hidden ↔ ∀ pk ∈ s.live, s.Named pk → pk ∈ s.excludedIds := by
  constructor
  · intro h pk hlive hnamed
    refine Decidable.byContradiction fun hnot => ?_
    exact h pk hnamed (mem_listed_iff.mpr ⟨hlive, hnot⟩)
  · intro h pk hnamed hlisted
    obtain ⟨hlive, hnot⟩ := mem_listed_iff.mp hlisted
    exact hnot (h pk hlive hnamed)

/-- What is named after a request was answered. -/
theorem named_record_iff {i pk : Nat} {ids : List Nat} :
    (s.record i ids).Named pk ↔ s.Named pk ∨ pk ∈ ids := by
  show (∃ instanceIds ∈ s.answered ++ [ids], pk ∈ instanceIds) ↔ _
  simp only [List.mem_append, List.mem_singleton, or_and_right, exists_or, exists_eq_left]
  exact Iff.rfl

/-- After a request has recorded its ids, the submissions are hidden if it named those that are
still to be deleted. -/
theorem hidden_record_iff {i : Nat} {ids : List Nat} (hids : s.started[i]? = some ids) :
    (s.record i ids).Hidden ↔
      ∀ pk ∈ s.live, s.Named pk → ∀ other, s.started[i]? = some other → pk ∈ other := by
  rw [hidden_iff]
  constructor
  · intro h pk hlive hnamed other hother
    rw [← Option.some_inj.mp (hids.symm.trans hother)]
    exact h pk hlive (named_record_iff.mpr (Or.inl hnamed))
  · intro h pk hlive hnamed
    cases named_record_iff.mp hnamed with
    | inl hbefore => exact h pk hlive hbefore ids hids
    | inr hnew => exact hnew

/-- Without the entry, the submissions are hidden if they are deleted. -/
theorem hidden_deleteEntry_iff : s.deleteEntry.Hidden ↔ ∀ pk ∈ s.live, ¬ s.Named pk := by
  rw [hidden_iff]
  constructor
  · intro h pk hlive hnamed
    exact absurd (h pk hlive hnamed) List.not_mem_nil
  · intro h pk hlive hnamed
    exact absurd hnamed (h pk hlive)

/-- Deleted rows stay out of the listings. -/
theorem Hidden.deleteRows (h : s.Hidden) (i : Nat) (ids : List Nat) :
    (s.deleteRows i ids).Hidden := by
  rw [hidden_iff] at h ⊢
  intro pk hlive hnamed
  exact h pk (List.mem_filter.mp hlive).1 hnamed

/-- A step from a state where the submissions are hidden. -/
theorem hidden_step_iff {enablePermanentDelete : Bool} {action : DeletionAction}
    (hstep : DeletionStep enablePermanentDelete s action s') (hs : s.Hidden) :
    s'.Hidden ↔ CoversDeletions s action s' := by
  cases action with
  | request request =>
      refine iff_of_true ?_ trivial
      unfold DeletionStep at hstep
      cases hids : destroyIds enablePermanentDelete request with
      | error error =>
          simp only [hids] at hstep
          rw [hstep]
          exact hs
      | ok ids =>
          simp only [hids] at hstep
          rw [hstep]
          exact hs
  | record i =>
      obtain ⟨ids, hids, rfl⟩ := hstep
      exact hidden_record_iff hids
  | deleteRows i =>
      obtain ⟨ids, -, rfl⟩ := hstep
      exact iff_of_true (hs.deleteRows i ids) trivial
  | deleteEntry =>
      obtain ⟨-, rfl⟩ := hstep
      exact hidden_deleteEntry_iff

/-- In a run, a submission whose deletion was accepted is never listed again, if and only if each
step covers the deletions that are under way. -/
theorem hidden_run_iff (enablePermanentDelete : Bool) (live : List Nat) (s' : DeletingForm)
    (actions : List DeletionAction) :
    Run (Guarded (DeletionStep enablePermanentDelete) LeavesHidden) { live := live } actions s' ↔
      Run (Guarded (DeletionStep enablePermanentDelete) CoversDeletions) { live := live } actions
        s' := by
  have hstart : ({ live := live } : DeletingForm).Hidden := by
    intro pk hnamed
    obtain ⟨ids, hids, -⟩ := hnamed
    exact absurd hids List.not_mem_nil
  refine Run.guarded_congr Hidden hstart ?_ ?_
  · exact fun s action s' _ hstep hs => hidden_step_iff hstep hs
  · exact fun s action s' _ hstep hcovers hs => (hidden_step_iff hstep hs).mpr hcovers

/-- Two requests are answered before a task has run: the submission of the first one is listed. -/
theorem not_hidden_run :
    ¬ ∀ (live : List Nat) (s' : DeletingForm) (actions : List DeletionAction),
      Run (DeletionStep false) { live := live } actions s' → s'.Hidden := by
  intro hall
  have hrun : Run (DeletionStep false) { live := [1, 2] }
      [.request { instanceIds := some "1" }, .record 0, .request { instanceIds := some "2" },
        .record 0] _ :=
    .cons rfl (.cons ⟨[1], rfl, rfl⟩ (.cons rfl (.cons ⟨[2], rfl, rfl⟩ (.nil _))))
  refine hall _ _ _ hrun 1 ⟨[1], ?_, List.mem_singleton_self 1⟩ ?_
  · exact List.mem_cons_self
  · exact List.mem_cons_self

end DeletingForm

end Onadata
