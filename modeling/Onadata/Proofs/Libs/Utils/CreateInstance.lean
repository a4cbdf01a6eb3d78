import Onadata.Lib.ExceptList
import Onadata.Libs.Utils.LoggerTools

/-!
# `Onadata.Proofs.Libs.Utils.CreateInstance`: what a submission writes

`createInstance_ok_cases` says everything that an accepted submission can do to the store:
nothing, one new instance, or one edited instance with a history row.
-/

set_option autoImplicit false

namespace Onadata.Proofs

open Onadata.Lib (bind_eq_ok pure_eq_ok throw_ne_ok)

variable {Xml : Type} [SubmissionXml Xml]

/-- A new instance for the payload. -/
def newInstance (store : FormStore Xml) (uuid : String) (xml : Xml) : Instance Xml :=
  { pk := store.nextPk, uuid := uuid, xml := xml, checksum := SubmissionXml.checksum xml }

/-- The store with a new instance. -/
def withCreated (store : FormStore Xml) (uuid : String) (xml : Xml) : FormStore Xml :=
  { store with
      instances := store.instances ++ [newInstance store uuid xml]
      nextPk := store.nextPk + 1 }

/-- The store with `edited` replaced by the payload and filed under `oldUuid`. -/
def withEdited (store : FormStore Xml) (edited : Instance Xml) (oldUuid uuid : String)
    (xml : Xml) : FormStore Xml :=
  { store with
      instances := store.instances.map fun i =>
        if i.pk = edited.pk then
          { edited with uuid := uuid, xml := xml, checksum := SubmissionXml.checksum xml }
        else i
      histories := store.histories ++ [⟨edited.pk, oldUuid, edited.xml, edited.checksum⟩] }

/-- A uuid of the payload is the one that is stored. -/
theorem setUuid_of_some (uuid : Option String) (xml : Xml) (u generated : String)
    (hxml : getUuidFromXml xml = some u) (hne : u ≠ "") (huuid : uuid = none ∨ uuid = some u) :
    setUuid uuid xml generated = u := by
  have hfilter : (some u).filter (fun text => decide (text ≠ "")) = some u := by
    simp [Option.filter, hne]
  rcases huuid with rfl | rfl
  · simp only [setUuid, hxml, hfilter, Option.filter_none]
  · simp only [setUuid, hxml, hfilter]

/-- What `createNewInstance` writes. -/
theorem createNewInstance_eq_ok {store store' : FormStore Xml}
    {request : SubmissionRequest Xml} {result : SubmissionResult}
    (h : createNewInstance store request = .ok (store', result)) :
    result = .created store.nextPk ∧
      store' = withCreated store (setUuid none request.xml request.generatedUuid)
        request.xml := by
  simp only [createNewInstance, bind_eq_ok] at h
  obtain ⟨⟨created, row⟩, hcreate, h⟩ := h
  simp only [FormStore.create] at hcreate
  split at hcreate
  · exact absurd hcreate throw_ne_ok
  · obtain ⟨rfl, rfl⟩ := Prod.mk.inj (pure_eq_ok.mp hcreate)
    obtain ⟨rfl, rfl⟩ := Prod.mk.inj (pure_eq_ok.mp h)
    exact ⟨rfl, rfl⟩

/-- What `editInstance` writes. -/
theorem editInstance_eq_ok {store store' : FormStore Xml} {edited : Instance Xml}
    {oldUuid : String} {newUuid : Option String} {request : SubmissionRequest Xml}
    {result : SubmissionResult}
    (h : editInstance store edited oldUuid newUuid request = .ok (store', result)) :
    result = .edited edited.pk ∧
      store' = withEdited store edited oldUuid
        (setUuid newUuid request.xml request.generatedUuid) request.xml := by
  simp only [editInstance] at h
  split at h
  · exact absurd h throw_ne_ok
  · simp only [bind_eq_ok, FormStore.save] at h
    obtain ⟨saved, hsave, h⟩ := h
    split at hsave
    · exact absurd hsave throw_ne_ok
    · obtain rfl := pure_eq_ok.mp hsave
      obtain ⟨rfl, rfl⟩ := Prod.mk.inj (pure_eq_ok.mp h)
      exact ⟨rfl, rfl⟩

/-- `getInstance` answers with an instance, never with a duplicate. -/
theorem getInstance_ne_duplicate (resolution : EditConflictResolution)
    (store store' : FormStore Xml) (newUuid : Option String)
    (request : SubmissionRequest Xml) :
    getInstance resolution store newUuid request ≠ .ok (store', .duplicate) := by
  have hnew : createNewInstance store request ≠ .ok (store', .duplicate) := fun h =>
    absurd (createNewInstance_eq_ok h).1 (by simp)
  have hedit : ∀ edited oldUuid,
      editInstance store edited oldUuid newUuid request ≠ .ok (store', .duplicate) :=
    fun edited oldUuid h => absurd (editInstance_eq_ok h).1 (by simp)
  simp only [getInstance]
  split
  · exact hnew
  split
  · exact hedit _ _
  split
  · simp
  split
  · exact hnew
  split
  · cases resolution with
    | lastWriteWins => exact hedit _ _
    | reject => simp [handleEditConflict]
    | unsupported name => simp [handleEditConflict]
  · simp

/-- An accepted submission leaves the store as it is, creates an instance, or edits one. -/
theorem createInstance_ok_cases {resolution : EditConflictResolution}
    {store store' : FormStore Xml} {request : SubmissionRequest Xml}
    {result : SubmissionResult}
    (h : createInstance resolution store request = .ok (store', result)) :
    (store' = store ∧ (result = .duplicate ∨ ∃ pk, result = .alreadyApplied pk)) ∨
    (result = .created store.nextPk ∧
      store' = withCreated store (setUuid none request.xml request.generatedUuid)
        request.xml) ∨
    ∃ edited ∈ store.instances, ∃ oldUuid, result = .edited edited.pk ∧
      store' = withEdited store edited oldUuid
        (setUuid (getUuidFromXml request.xml) request.xml request.generatedUuid)
        request.xml := by
  have hduplicate : (pure (store, SubmissionResult.duplicate) :
      Except SubmissionError _) = .ok (store', result) →
      store' = store ∧ (result = .duplicate ∨ ∃ pk, result = .alreadyApplied pk) := by
    intro h
    obtain ⟨rfl, rfl⟩ := Prod.mk.inj (pure_eq_ok.mp h)
    exact ⟨rfl, Or.inl rfl⟩
  simp only [createInstance] at h
  split at h
  · exact Or.inl (hduplicate h)
  split at h
  · exact Or.inl (hduplicate h)
  simp only [getInstance] at h
  split at h
  · exact Or.inr (Or.inl (createNewInstance_eq_ok h))
  split at h
  · -- The deprecated uuid is the one of an instance.
    rename_i edited hfind
    obtain ⟨hresult, hstore⟩ := editInstance_eq_ok h
    exact Or.inr (Or.inr ⟨edited, List.mem_of_find?_eq_some hfind, _, hresult, hstore⟩)
  split at h
  · obtain ⟨rfl, rfl⟩ := Prod.mk.inj (pure_eq_ok.mp h)
    exact Or.inl ⟨rfl, Or.inr ⟨_, rfl⟩⟩
  split at h
  · exact Or.inr (Or.inl (createNewInstance_eq_ok h))
  split at h
  · -- A conflicting edit: it is applied or refused.
    rename_i edited hfind
    cases resolution with
    | lastWriteWins =>
        obtain ⟨hresult, hstore⟩ := editInstance_eq_ok h
        exact Or.inr (Or.inr ⟨edited, List.mem_of_find?_eq_some hfind, _, hresult, hstore⟩)
    | reject => exact absurd h throw_ne_ok
    | unsupported name => exact absurd h throw_ne_ok
  · exact absurd h throw_ne_ok

end Onadata.Proofs
