import Onadata.Apps.Logger.Models.SubmissionCount
import Onadata.Lib.Run

/-!
# `Onadata.Proofs.Apps.Logger.SubmissionCount`: when the number of submissions is right

Each operation is described by the stored number and the number of live submissions after
it (`create_num`, `setDeleted_num`, `hardDelete_num`). The stored number is wrong after an
operation whose form object is older than the row and is written, and after a hard deletion
that the row and the form object count differently (`KeepsCount`).

A soft deletion counts the live submissions again. A hard deletion does not: it decreases
the stored number whether the submission was live or not, and without a live geometry the
form object with the old number is written over it.
-/

set_option autoImplicit false

namespace Onadata.Proofs

open Onadata.Lib (Run Guarded Table)

/-- The stored number is the number of live submissions. -/
def CountRight (s : CountedForm) : Prop :=
  s.xform.numOfSubmissions = s.liveCount

/-- A save of a submission with these geopoint answers marks the form object and writes it. -/
def MarksForm (s : CountedForm) (xform : XFormColumns) (gps : List Bool) : Prop :=
  s.geopointXpaths = true ∧ gps.all id = true ∧ gps ≠ [] ∧ xform.instancesWithGeopoints = false

/-- Another submission than `pk` is live and has a geometry. -/
def OtherLiveGeom (s : CountedForm) (pk : Nat) : Prop :=
  ∃ pk' row, pk' ≠ pk ∧ s.instances.get? pk' = some row ∧ (row.live && row.geom) = true

/-! ### The parts of a save -/

section
variable (s : CountedForm) (xform : XFormColumns) (row : SubmissionRow)

/-- What `_set_geom` does to the stored number, the submissions, the form object and the mark
of deletion. -/
theorem setGeom_spec :
    ((MarksForm s xform row.gps →
        (s.setGeom xform row).1.xform.numOfSubmissions = xform.numOfSubmissions) ∧
      (¬MarksForm s xform row.gps → (s.setGeom xform row).1 = s)) ∧
    (s.setGeom xform row).1.instances = s.instances ∧
    (s.setGeom xform row).2.1.numOfSubmissions = xform.numOfSubmissions ∧
    (s.setGeom xform row).2.2.deletedAt = row.deletedAt := by
  unfold CountedForm.setGeom
  by_cases hparse : (s.geopointXpaths && row.gps.all id) = true
  · rw [if_pos hparse]
    by_cases hmark : (!xform.instancesWithGeopoints && !row.gps.isEmpty) = true
    · -- the first point of the form
      rw [if_pos hmark]
      simp only [Bool.and_eq_true, Bool.not_eq_true', List.isEmpty_eq_false_iff] at hparse hmark
      have hmarks : MarksForm s xform row.gps := ⟨hparse.1, hparse.2, hmark.2, hmark.1⟩
      exact ⟨⟨fun _ => rfl, fun h => absurd hmarks h⟩, rfl, rfl, rfl⟩
    · rw [if_neg hmark]
      simp only [Bool.and_eq_true, Bool.not_eq_true', List.isEmpty_eq_false_iff] at hmark
      exact ⟨⟨fun h => absurd ⟨h.2.2.2, h.2.2.1⟩ hmark, fun _ => rfl⟩, rfl, rfl, rfl⟩
  · rw [if_neg hparse]
    simp only [Bool.and_eq_true] at hparse
    exact ⟨⟨fun h => absurd ⟨h.1, h.2.1⟩ hparse, fun _ => rfl⟩, rfl, rfl, rfl⟩

end

/-- Of live submissions with a geometry, those that a deletion leaves are the other ones. -/
theorem count_delete_lt_one_iff (s : CountedForm) (pk : Nat) :
    (s.instances.delete pk).count (fun row => row.live && row.geom) < 1 ↔ ¬OtherLiveGeom s pk := by
  rw [Nat.lt_one_iff, Table.count_delete_eq_zero]
  unfold OtherLiveGeom
  push Not
  simp only [ne_eq, Bool.not_eq_true]

/-- With another live submission with a geometry, there is a live one after a deletion. -/
theorem liveCount_pos_of_otherLiveGeom {s : CountedForm} {pk : Nat} (h : OtherLiveGeom s pk) :
    0 < (s.instances.delete pk).count SubmissionRow.live := by
  obtain ⟨pk', row, hne, hrow, hgeom⟩ := h
  refine Nat.pos_of_ne_zero fun hzero => ?_
  have hlive := Table.count_delete_eq_zero.mp hzero pk' row hne hrow
  rw [hlive] at hgeom
  cases hgeom

/-- What `_update_geopoints` does to the stored number. -/
theorem updateGeopoints_spec (s : CountedForm) (xform : XFormColumns) :
    ((s.updateGeopoints xform).1.xform.numOfSubmissions =
      if s.instances.count (fun row => row.live && row.geom) < 1 then xform.numOfSubmissions
      else s.xform.numOfSubmissions) ∧
    (s.updateGeopoints xform).1.instances = s.instances ∧
    (s.updateGeopoints xform).2.numOfSubmissions = xform.numOfSubmissions := by
  unfold CountedForm.updateGeopoints
  split
  · exact ⟨rfl, rfl, rfl⟩
  · exact ⟨rfl, rfl, rfl⟩

/-- A forced `submission_count` makes the stored number right, unless the form object has the
right number already. -/
theorem submissionCount_spec (s : CountedForm) (xform : XFormColumns) :
    ((s.submissionCount xform true).1.xform.numOfSubmissions =
      if (s.liveCount : Int) = xform.numOfSubmissions then s.xform.numOfSubmissions
      else s.liveCount) ∧
    (s.submissionCount xform true).1.instances = s.instances := by
  unfold CountedForm.submissionCount
  rw [if_pos (Or.inr rfl)]
  by_cases hcount : (s.liveCount : Int) = xform.numOfSubmissions
  · rw [if_neg (not_not.mpr hcount), if_pos hcount]
    exact ⟨rfl, rfl⟩
  · rw [if_pos hcount, if_neg hcount]
    exact ⟨rfl, rfl⟩

/-! ### The operations -/

/-- A creation increases the number of live submissions, and the number that is stored then. -/
theorem create_spec (s : CountedForm) (xform : XFormColumns) (gps : List Bool) :
    (MarksForm s xform gps →
      (s.create xform gps).xform.numOfSubmissions = xform.numOfSubmissions + 1) ∧
    (¬MarksForm s xform gps →
      (s.create xform gps).xform.numOfSubmissions = s.xform.numOfSubmissions + 1) ∧
    (s.create xform gps).liveCount = s.liveCount + 1 := by
  obtain ⟨⟨hmarks, hkeeps⟩, hinstances, -, hdeleted⟩ := setGeom_spec s xform { gps := gps }
  have hlive : (s.setGeom xform { gps := gps }).2.2.live = true := by
    rw [SubmissionRow.live, hdeleted]
    rfl
  refine ⟨fun h => ?_, fun h => ?_, ?_⟩
  · show (s.setGeom xform { gps := gps }).1.xform.numOfSubmissions + 1 = _
    rw [hmarks h]
  · show (s.setGeom xform { gps := gps }).1.xform.numOfSubmissions + 1 = _
    rw [hkeeps h]
  · show ((s.setGeom xform { gps := gps }).1.instances.create
      (s.setGeom xform { gps := gps }).2.2).count _ = _
    rw [Table.count_create, if_pos hlive, hinstances]
    rfl

/-- A soft deletion of a live submission leaves one live submission less. It counts them
again, unless the form object has the right number already. Then the stored number is the
decreased one, or the number of the form object if that was written last. -/
theorem setDeleted_spec {s : CountedForm} {pk : Nat} {row : SubmissionRow}
    (hrow : s.instances.get? pk = some row) (hlive : row.live = true)
    (xform : Option XFormColumns) (deletedAt : Int) :
    ((s.setDeleted xform pk row deletedAt).liveCount + 1 = s.liveCount) ∧
    (((s.setDeleted xform pk row deletedAt).liveCount : Int) =
        (xform.getD s.xform).numOfSubmissions ∧ OtherLiveGeom s pk →
      (s.setDeleted xform pk row deletedAt).xform.numOfSubmissions =
        max ((s.setGeom (xform.getD s.xform)
          { row with deletedAt := some deletedAt }).1.xform.numOfSubmissions - 1) 0) ∧
    (¬(((s.setDeleted xform pk row deletedAt).liveCount : Int) =
        (xform.getD s.xform).numOfSubmissions ∧ OtherLiveGeom s pk) →
      (s.setDeleted xform pk row deletedAt).xform.numOfSubmissions =
        (s.setDeleted xform pk row deletedAt).liveCount) := by
  set form := xform.getD s.xform with hform
  set written := s.setGeom form { row with deletedAt := some deletedAt } with hwritten
  obtain ⟨-, hinstances, hnumber, hdeleted⟩ := setGeom_spec s form
    { row with deletedAt := some deletedAt }
  rw [← hwritten] at hinstances hnumber hdeleted
  -- the row that is written is deleted
  have hsome : written.2.2.deletedAt.isSome = true := by
    rw [hdeleted]
    rfl
  have hnotLive : written.2.2.live = false := by
    rw [SubmissionRow.live, hdeleted]
    rfl
  have hsoft : written.1.isInstanceSoftDeleted pk written.2.2 = true := by
    unfold CountedForm.isInstanceSoftDeleted
    rw [hinstances, hrow]
    simp only [Bool.and_eq_true]
    exact ⟨hlive, hsome⟩
  -- the form with the row, before the geometries are looked at
  let saved : CountedForm :=
    { written.1.updateXFormSubmissionCountDelete with
        instances := written.1.updateXFormSubmissionCountDelete.instances.save pk written.2.2 }
  have hsaved : saved.instances = s.instances.save pk written.2.2 := by
    show written.1.instances.save pk written.2.2 = _
    rw [hinstances]
  have heq : s.setDeleted xform pk row deletedAt =
      ((saved.updateGeopoints written.2.1).1.submissionCount
        (saved.updateGeopoints written.2.1).2 true).1 := by
    unfold CountedForm.setDeleted CountedForm.saveInstance CountedForm.decrOnSoftDelete
    simp only [← hform, ← hwritten, hsoft, hsome, if_true]
    rfl
  obtain ⟨hgeoNumber, hgeoInstances, hgeoForm⟩ := updateGeopoints_spec saved written.2.1
  obtain ⟨hcountNumber, hcountInstances⟩ := submissionCount_spec
    (saved.updateGeopoints written.2.1).1 (saved.updateGeopoints written.2.1).2
  have hlives : (s.setDeleted xform pk row deletedAt).liveCount =
      (s.instances.delete pk).count SubmissionRow.live := by
    unfold CountedForm.liveCount
    rw [heq, hcountInstances, hgeoInstances, hsaved, Table.count_save hrow, hnotLive]
    rfl
  have hliveGeo : (saved.updateGeopoints written.2.1).1.liveCount =
      (s.setDeleted xform pk row deletedAt).liveCount := by
    unfold CountedForm.liveCount
    rw [heq, hcountInstances]
  have hgeom : saved.instances.count (fun row => row.live && row.geom) < 1 ↔
      ¬OtherLiveGeom s pk := by
    rw [hsaved, Table.count_save hrow, hnotLive]
    exact count_delete_lt_one_iff s pk
  have hstored : (s.setDeleted xform pk row deletedAt).xform.numOfSubmissions =
      if ((s.setDeleted xform pk row deletedAt).liveCount : Int) = form.numOfSubmissions then
        if saved.instances.count (fun row => row.live && row.geom) < 1 then form.numOfSubmissions
        else saved.xform.numOfSubmissions
      else (s.setDeleted xform pk row deletedAt).liveCount := by
    rw [← hliveGeo, heq, hcountNumber, hgeoForm, hgeoNumber, hnumber]
  refine ⟨?_, ?_, ?_⟩
  · rw [hlives, CountedForm.liveCount, ← Table.count_delete hrow SubmissionRow.live, if_pos hlive]
  · rintro ⟨hcount, hother⟩
    rw [hstored, if_pos hcount, if_neg fun h => hgeom.mp h hother]
    rfl
  · intro hnot
    rw [hstored]
    split
    · rename_i hcount
      rw [if_pos (hgeom.mpr fun hother => hnot ⟨hcount, hother⟩)]
      exact hcount.symm
    · rfl

/-- A hard deletion decreases the stored number, and the form object is written over it if no
other live submission has a geometry. -/
theorem hardDelete_spec {s : CountedForm} {pk : Nat} {row : SubmissionRow}
    (hrow : s.instances.get? pk = some row) (xform : Option XFormColumns) :
    ((s.hardDelete xform pk).liveCount + (if row.live then 1 else 0) = s.liveCount) ∧
    (OtherLiveGeom s pk →
      (s.hardDelete xform pk).xform.numOfSubmissions = max (s.xform.numOfSubmissions - 1) 0) ∧
    (¬OtherLiveGeom s pk →
      (s.hardDelete xform pk).xform.numOfSubmissions =
        (xform.getD s.xform).numOfSubmissions) := by
  let deleted : CountedForm := { s with instances := s.instances.delete pk }
  obtain ⟨hnumber, hinstances, -⟩ :=
    updateGeopoints_spec deleted.updateXFormSubmissionCountDelete (xform.getD s.xform)
  have hgeom : deleted.updateXFormSubmissionCountDelete.instances.count
      (fun row => row.live && row.geom) < 1 ↔ ¬OtherLiveGeom s pk := count_delete_lt_one_iff s pk
  refine ⟨?_, fun hother => ?_, fun hother => ?_⟩
  · show Table.count (deleted.updateXFormSubmissionCountDelete.updateGeopoints _).1.instances _ +
      _ = _
    rw [hinstances]
    exact Table.count_delete hrow SubmissionRow.live
  · exact hnumber.trans (if_neg fun h => hgeom.mp h hother)
  · exact hnumber.trans (if_pos (hgeom.mpr hother))

/-! ### Runs -/

/-- An operation as a step. -/
def SubmissionStep (s : CountedForm) (op : SubmissionOp) (s' : CountedForm) : Prop :=
  s.apply op = some s'

/-- The condition under which an operation keeps the number right. The form object that a save
marks and writes has the stored number; a soft deletion may also be given any other number but
the one that it is about to count. A hard deletion with another live geometry is one of a live
submission, and without one the form object has the number that is right afterwards. -/
def KeepsCount (s : CountedForm) : SubmissionOp → Prop
  | .create xform gps =>
      MarksForm s xform gps → xform.numOfSubmissions = s.xform.numOfSubmissions
  | .setDeleted pk xform _ =>
      ∀ row, s.instances.get? pk = some row →
        MarksForm s (xform.getD s.xform) row.gps → OtherLiveGeom s pk →
          (xform.getD s.xform).numOfSubmissions ≠ s.xform.numOfSubmissions - 1
  | .delete pk xform =>
      ∀ row, s.instances.get? pk = some row →
        (OtherLiveGeom s pk → row.live = true) ∧
        (¬OtherLiveGeom s pk → (xform.getD s.xform).numOfSubmissions =
          s.xform.numOfSubmissions - if row.live then 1 else 0)

/-- A creation keeps the number right exactly under the condition. -/
theorem countRight_create_iff {s : CountedForm} (hs : CountRight s) (xform : XFormColumns)
    (gps : List Bool) :
    CountRight (s.create xform gps) ↔
      (MarksForm s xform gps → xform.numOfSubmissions = s.xform.numOfSubmissions) := by
  obtain ⟨hmarks, hkeeps, hlives⟩ := create_spec s xform gps
  unfold CountRight at hs ⊢
  by_cases h : MarksForm s xform gps
  · have hnumber := hmarks h
    simp only [h, true_implies]
    omega
  · have hnumber := hkeeps h
    simp only [h, false_implies, iff_true]
    omega

/-- A soft deletion keeps the number right exactly under the condition. -/
theorem countRight_setDeleted_iff {s : CountedForm} (hs : CountRight s) {pk : Nat}
    {row : SubmissionRow} (hrow : s.instances.get? pk = some row) (hlive : row.live = true)
    (xform : Option XFormColumns) (deletedAt : Int) :
    CountRight (s.setDeleted xform pk row deletedAt) ↔
      (MarksForm s (xform.getD s.xform) row.gps → OtherLiveGeom s pk →
        (xform.getD s.xform).numOfSubmissions ≠ s.xform.numOfSubmissions - 1) := by
  obtain ⟨hlives, hdecreased, hcounted⟩ := setDeleted_spec hrow hlive xform deletedAt
  obtain ⟨⟨hmarks, hkeeps⟩, -⟩ :=
    setGeom_spec s (xform.getD s.xform) { row with deletedAt := some deletedAt }
  unfold CountRight at hs ⊢
  by_cases hcount : ((s.setDeleted xform pk row deletedAt).liveCount : Int) =
      (xform.getD s.xform).numOfSubmissions
  · by_cases hother : OtherLiveGeom s pk
    · -- the other submission is live, so that the right number is not zero
      have hpositive : 0 < (s.setDeleted xform pk row deletedAt).liveCount := by
        have hpos := liveCount_pos_of_otherLiveGeom hother
        have htotal : _ = s.liveCount := Table.count_delete hrow SubmissionRow.live
        rw [if_pos hlive] at htotal
        omega
      have hnumber := hdecreased ⟨hcount, hother⟩
      by_cases h : MarksForm s (xform.getD s.xform) row.gps
      · rw [hmarks h] at hnumber
        simp only [h, hother, true_implies]
        omega
      · rw [hkeeps h] at hnumber
        simp only [h, false_implies, iff_true]
        omega
    · have hnumber := hcounted fun h => hother h.2
      simp only [hother, false_implies, implies_true, iff_true]
      exact hnumber
  · have hnumber := hcounted fun h => hcount h.1
    refine iff_of_true hnumber fun _ _ heq => hcount ?_
    omega

/-- A hard deletion keeps the number right exactly under the condition. -/
theorem countRight_hardDelete_iff {s : CountedForm} (hs : CountRight s) {pk : Nat}
    {row : SubmissionRow} (hrow : s.instances.get? pk = some row)
    (xform : Option XFormColumns) :
    CountRight (s.hardDelete xform pk) ↔
      (OtherLiveGeom s pk → row.live = true) ∧
      (¬OtherLiveGeom s pk → (xform.getD s.xform).numOfSubmissions =
        s.xform.numOfSubmissions - if row.live then 1 else 0) := by
  obtain ⟨hlives, hdecreased, hwritten⟩ := hardDelete_spec hrow xform
  unfold CountRight at hs ⊢
  by_cases hother : OtherLiveGeom s pk
  · have hnumber := hdecreased hother
    have hpos := liveCount_pos_of_otherLiveGeom hother
    have htotal : _ = s.liveCount := Table.count_delete hrow SubmissionRow.live
    simp only [hother, true_implies, not_true, false_implies, and_true]
    cases hlive : row.live with
    | true =>
        rw [hlive] at hlives
        simp only [if_true] at hlives
        exact iff_of_true (by omega) rfl
    | false =>
        rw [hlive] at hlives htotal
        simp only [Bool.false_eq_true, if_false] at hlives htotal
        refine iff_of_false (fun hright => ?_) Bool.false_ne_true
        omega
  · have hnumber := hwritten hother
    simp only [hother, false_implies, not_false_eq_true, true_implies, true_and]
    split at hlives
    · rename_i hlive
      rw [if_pos hlive]
      omega
    · rename_i hlive
      rw [if_neg hlive]
      omega

/-- From a right number, an operation leads to a right number exactly under the condition. -/
theorem countRight_iff_keepsCount {s s' : CountedForm} {op : SubmissionOp}
    (hstep : SubmissionStep s op s') (hs : CountRight s) : CountRight s' ↔ KeepsCount s op := by
  unfold SubmissionStep CountedForm.apply at hstep
  cases op with
  | create xform gps =>
      obtain rfl := Option.some.inj hstep
      exact countRight_create_iff hs xform gps
  | setDeleted pk xform deletedAt =>
      dsimp only at hstep
      split at hstep
      · rename_i row hrow
        split at hstep
        · rename_i hlive
          obtain rfl := Option.some.inj hstep
          rw [countRight_setDeleted_iff hs hrow hlive]
          simp only [KeepsCount, hrow, Option.some.injEq, forall_eq']
        · cases hstep
      · cases hstep
  | delete pk xform =>
      dsimp only at hstep
      split at hstep
      · rename_i row hrow
        obtain rfl := Option.some.inj hstep
        rw [countRight_hardDelete_iff hs hrow]
        simp only [KeepsCount, hrow, Option.some.injEq, forall_eq']
      · cases hstep

/-- From a right number, the number is right after each operation of a run exactly if each
operation meets the condition. -/
theorem countRight_run {s s' : CountedForm} {ops : List SubmissionOp} (hs : CountRight s) :
    Run (Guarded SubmissionStep fun _ _ s' => CountRight s') s ops s' ↔
      Run (Guarded SubmissionStep fun s op _ => KeepsCount s op) s ops s' :=
  Run.guarded_congr CountRight hs
    (fun _ _ _ _ hstep hs => countRight_iff_keepsCount hstep hs)
    (fun _ _ _ _ hstep hkeeps hs => (countRight_iff_keepsCount hstep hs).mpr hkeeps)

/-- A form with points, without submissions. -/
def pointForm : CountedForm :=
  { geopointXpaths := true }

/-- Two submissions with points, of which the first one is deleted. -/
theorem countRight_run_twoPoints :
    ∃ s', s'.liveCount = 1 ∧
      Run (Guarded SubmissionStep fun _ _ s' => CountRight s') pointForm
        [.create {} [true], .create ⟨1, true⟩ [true], .delete 0 none] s' := by
  let first := pointForm.create {} [true]
  let second := first.create ⟨1, true⟩ [true]
  let third := second.hardDelete none 0
  refine ⟨third, rfl, (countRight_run (s := pointForm) rfl).mpr ?_⟩
  refine .cons ⟨rfl, fun _ => rfl⟩ (.cons ⟨rfl, fun h => absurd h.2.2.2 (by decide)⟩
    (.cons ⟨rfl, fun row hrow => ?_⟩ (.nil third)))
  have hother : OtherLiveGeom second 0 := ⟨1, ⟨[true], true, none⟩, by decide, rfl, rfl⟩
  obtain rfl := Option.some.inj hrow
  exact ⟨fun _ => rfl, fun h => absurd hother h⟩

/-- A form with a submission that is soft deleted and a live one with a point. -/
def deletedForm : CountedForm :=
  { geopointXpaths := true
    xform := ⟨1, true⟩
    instances :=
      { rows := [(0, ⟨[], false, some 5⟩), (1, ⟨[true], true, none⟩)]
        nextPk := 2
        pk_lt := by decide
        nodup := by decide } }

/-- The hard deletion of the submission that was soft deleted before makes the number wrong. -/
theorem not_countRight_purged :
    ¬∀ (s : CountedForm) (ops : List SubmissionOp) (s' : CountedForm), CountRight s →
      Run SubmissionStep s ops s' → CountRight s' := by
  intro h
  have hwrong : CountRight (deletedForm.hardDelete none 0) :=
    h deletedForm [.delete 0 none] (deletedForm.hardDelete none 0) rfl (.cons rfl (.nil _))
  exact absurd hwrong (by unfold CountRight; decide)

end Onadata.Proofs
