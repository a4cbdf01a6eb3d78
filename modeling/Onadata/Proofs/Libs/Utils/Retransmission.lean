import Mathlib.Data.List.Nodup
import Mathlib.Tactic.Common
import Onadata.Lib.Run
import Onadata.Proofs.Libs.Utils.CreateInstance

/-!
# `Onadata.Proofs.Libs.Utils.Retransmission`: a payload that is sent again

A phone that gets no answer sends its payload again. `createInstance` recognises it by the
uuid: of an instance, or of a history row. The module says when this finds every payload
that was accepted before.

* `createInstance_cases`: what `createInstance` does with a payload that has its own uuid.
* `Received`: the invariant. Every accepted uuid is in the store, as that of an instance or
  of a history row, and never as both.
* `retransmissionSafe_iff`: a run is safe against retransmission exactly when no
  conflicting edit is applied in it. Such an edit files the overwritten row under the
  deprecated uuid, and the uuid that the row had is lost.
-/

set_option autoImplicit false

namespace Onadata.Proofs

open Onadata.Lib (Run Guarded bind_eq_ok pure_eq_ok throw_ne_ok)

section
variable {Xml : Type} [SubmissionXml Xml]

/-! ### Lookups -/

section Lookups
omit [SubmissionXml Xml]

/-- The uuid is the one of an instance. -/
def IsCurrent (store : FormStore Xml) (uuid : String) : Prop :=
  ∃ i ∈ store.instances, i.uuid = uuid

/-- The uuid is the one of a history row. -/
def IsFiled (store : FormStore Xml) (uuid : String) : Prop :=
  ∃ h ∈ store.histories, h.uuid = uuid

/-- No instance is deleted, primary keys are unique, and every history row has its
instance. -/
structure IsLive (store : FormStore Xml) : Prop where
  live : ∀ i ∈ store.instances, i.deletedAt = none
  pk_lt : ∀ i ∈ store.instances, i.pk < store.nextPk
  pk_nodup : (store.instances.map (·.pk)).Nodup
  filed : ∀ h ∈ store.histories, ∃ i ∈ store.instances, i.pk = h.xformInstance

theorem findInstance_isSome (store : FormStore Xml) (uuid : String) :
    (store.findInstance (some uuid)).isSome = true ↔ IsCurrent store uuid := by
  simp [FormStore.findInstance, IsCurrent]

theorem findHistory_isSome (store : FormStore Xml) (uuid : String) :
    (store.findHistory (some uuid)).isSome = true ↔ IsFiled store uuid := by
  simp [FormStore.findHistory, IsFiled]

/-- A found instance is a row with the uuid. -/
theorem findInstance_eq_some {store : FormStore Xml} {uuid : String} {i : Instance Xml}
    (h : store.findInstance (some uuid) = some i) : i ∈ store.instances ∧ i.uuid = uuid := by
  simp only [FormStore.findInstance, Option.bind_some] at h
  exact ⟨List.mem_of_find?_eq_some h, by simpa using List.find?_some h⟩

/-- The instance with a primary key, if there is one. -/
theorem instanceByPk_eq_some {store : FormStore Xml} {pk : Nat} {i : Instance Xml}
    (h : store.instanceByPk pk = some i) : i ∈ store.instances ∧ i.pk = pk := by
  exact ⟨List.mem_of_find?_eq_some h, by simpa using List.find?_some h⟩

/-- When no instance is deleted, every history row is one of a live instance. -/
theorem findLiveHistory_isSome {store : FormStore Xml} (hlive : IsLive store)
    (uuid : String) :
    (store.findLiveHistory (some uuid)).isSome = true ↔ IsFiled store uuid := by
  simp only [FormStore.findLiveHistory, Option.bind_some, List.find?_isSome, IsFiled,
    Bool.and_eq_true, decide_eq_true_eq]
  refine exists_congr fun h => and_congr_right fun hmem => and_iff_left ?_
  obtain ⟨i, hi, hpk⟩ := hlive.filed h hmem
  have hfound : (store.instanceByPk h.xformInstance).isSome = true := by
    rw [FormStore.instanceByPk, List.find?_isSome]
    exact ⟨i, hi, by simpa using hpk⟩
  obtain ⟨j, hj⟩ := Option.isSome_iff_exists.mp hfound
  rw [hj, Option.any_some, hlive.live j (instanceByPk_eq_some hj).1]
  rfl

end Lookups

/-! ### One submission -/

/-- The payload is an edit of a version that was edited before: its own uuid is unknown, and
the deprecated one is that of a history row and of no instance. -/
def ConflictingEdit (store : FormStore Xml) (xml : Xml) : Prop :=
  (∀ u, getUuidFromXml xml = some u → ¬ IsCurrent store u ∧ ¬ IsFiled store u) ∧
    ∃ oldUuid, getDeprecatedUuidFromXml xml = some oldUuid ∧ oldUuid ≠ "" ∧
      ¬ IsCurrent store oldUuid ∧ IsFiled store oldUuid

/-- The conflicting edit is applied. -/
def AppliesConflict (resolution : EditConflictResolution) (store : FormStore Xml)
    (request : SubmissionRequest Xml) : Prop :=
  resolution = .lastWriteWins ∧ request.mayEdit = true ∧ ConflictingEdit store request.xml

/-- A known uuid is answered as a duplicate. -/
theorem createInstance_of_known (resolution : EditConflictResolution)
    {store : FormStore Xml} (hlive : IsLive store) (request : SubmissionRequest Xml)
    {u : String} (hxml : getUuidFromXml request.xml = some u)
    (hknown : IsCurrent store u ∨ IsFiled store u) :
    createInstance resolution store request = .ok (store, .duplicate) := by
  by_cases hcurrent : IsCurrent store u
  · have hfound := (findInstance_isSome store u).mpr hcurrent
    simp only [createInstance, hxml, hfound, if_true]
    rfl
  · have hfound := (findLiveHistory_isSome hlive u).mpr (hknown.resolve_left hcurrent)
    simp only [createInstance, hxml, hfound, if_true]
    split <;> rfl

/-- A payload whose uuid is unknown is not answered as a duplicate. -/
theorem createInstance_ne_duplicate (resolution : EditConflictResolution)
    (store : FormStore Xml) (request : SubmissionRequest Xml) {u : String}
    (hxml : getUuidFromXml request.xml = some u) (hcurrent : ¬ IsCurrent store u)
    (hfiled : ¬ IsFiled store u) :
    createInstance resolution store request ≠ .ok (store, .duplicate) := by
  have hnotFound := mt (findInstance_isSome store u).mp hcurrent
  have hnotLive : ¬ (store.findLiveHistory (some u)).isSome = true := by
    simp only [FormStore.findLiveHistory, Option.bind_some, List.find?_isSome,
      Bool.and_eq_true, decide_eq_true_eq]
    rintro ⟨h, hmem, huuid, -⟩
    exact hfiled ⟨h, hmem, huuid⟩
  simp only [createInstance, hxml, hnotFound, hnotLive, Bool.false_eq_true, if_false]
  exact getInstance_ne_duplicate resolution store store (some u) request

/-- A payload with an unknown uuid that is a new submission: it is created. -/
theorem createNewInstance_of_unknown {store : FormStore Xml}
    (request : SubmissionRequest Xml) {u : String} (hxml : getUuidFromXml request.xml = some u)
    (hne : u ≠ "") (hcurrent : ¬ IsCurrent store u) :
    createNewInstance store request
      = .ok (withCreated store u request.xml, .created store.nextPk) := by
  have huuid := setUuid_of_some none request.xml u request.generatedUuid hxml hne (Or.inl rfl)
  have hfree : (store.instances.any fun i => decide (i.uuid = u)) = false := by
    simpa [IsCurrent] using hcurrent
  simp only [createNewInstance, FormStore.create, huuid, hfree, Bool.false_eq_true, if_false]
  rfl

/-- A payload with an unknown uuid that edits an instance. -/
theorem editInstance_of_unknown {store : FormStore Xml} (request : SubmissionRequest Xml)
    {u : String} (hxml : getUuidFromXml request.xml = some u) (hne : u ≠ "")
    (hcurrent : ¬ IsCurrent store u) (edited : Instance Xml) (oldUuid : String)
    (hedit : request.mayEdit = true) :
    editInstance store edited oldUuid (some u) request
      = .ok (withEdited store edited oldUuid u request.xml, .edited edited.pk) := by
  have huuid := setUuid_of_some (some u) request.xml u request.generatedUuid hxml hne
    (Or.inr rfl)
  have hfree : (store.instances.any fun i => i.pk ≠ edited.pk && decide (i.uuid = u))
      = false := by
    rw [List.any_eq_false]
    intro i hi
    have : i.uuid ≠ u := fun h => hcurrent ⟨i, hi, h⟩
    simp [this]
  simp only [editInstance, hedit, Bool.not_true, Bool.false_eq_true, if_false,
    FormStore.save, huuid, hfree]
  rfl

/-- What `createInstance` does with a payload that has its own uuid: it answers a
duplicate, refuses, creates an instance, edits the instance with the deprecated uuid, or
applies a conflicting edit. -/
theorem createInstance_cases (resolution : EditConflictResolution) {store : FormStore Xml}
    (hlive : IsLive store) (request : SubmissionRequest Xml) {u : String}
    (hxml : getUuidFromXml request.xml = some u) (hne : u ≠ "") :
    ((IsCurrent store u ∨ IsFiled store u) ∧
      createInstance resolution store request = .ok (store, .duplicate)) ∨
    (¬ IsCurrent store u ∧ ¬ IsFiled store u ∧
      ((∃ error, createInstance resolution store request = .error error ∧
          ¬ AppliesConflict resolution store request) ∨
        (createInstance resolution store request
            = .ok (withCreated store u request.xml, .created store.nextPk) ∧
          ¬ AppliesConflict resolution store request) ∨
        ∃ edited ∈ store.instances, ∃ oldUuid,
          createInstance resolution store request
              = .ok (withEdited store edited oldUuid u request.xml, .edited edited.pk) ∧
            ((edited.uuid = oldUuid ∧ ¬ AppliesConflict resolution store request) ∨
              (AppliesConflict resolution store request ∧
                ¬ IsCurrent store oldUuid ∧ IsFiled store oldUuid)))) := by
  by_cases hknown : IsCurrent store u ∨ IsFiled store u
  · exact Or.inl ⟨hknown, createInstance_of_known resolution hlive request hxml hknown⟩
  right
  obtain ⟨hcurrent, hfiled⟩ := not_or.mp hknown
  refine ⟨hcurrent, hfiled, ?_⟩
  have hcreate : createInstance resolution store request
      = getInstance resolution store (some u) request := by
    have hnotFound := mt (findInstance_isSome store u).mp hcurrent
    have hnotLive := mt (findLiveHistory_isSome hlive u).mp hfiled
    simp only [createInstance, hxml, hnotFound, hnotLive, Bool.false_eq_true, if_false]
  have hnew := createNewInstance_of_unknown request hxml hne hcurrent
  rw [hcreate]
  rcases hold : (getDeprecatedUuidFromXml request.xml).filter (· ≠ "") with _ | oldUuid
  · -- No deprecated uuid: a new submission.
    refine Or.inr (Or.inl ⟨by simp only [getInstance, hold, hnew], ?_⟩)
    rintro ⟨-, -, -, oldUuid, hdeprecated, hnonempty, -⟩
    simp [hdeprecated, hnonempty] at hold
  obtain ⟨hdeprecated, hnonempty⟩ : getDeprecatedUuidFromXml request.xml = some oldUuid ∧
      oldUuid ≠ "" := by
    simpa [Option.filter_eq_some_iff] using hold
  have hconflict : AppliesConflict resolution store request →
      ¬ IsCurrent store oldUuid ∧ IsFiled store oldUuid := by
    rintro ⟨-, -, -, other, hother, -, hnot, hisFiled⟩
    obtain rfl : oldUuid = other := Option.some.inj (hdeprecated.symm.trans hother)
    exact ⟨hnot, hisFiled⟩
  rcases hfind : store.findInstance (some oldUuid) with _ | edited
  · have hnotCurrent : ¬ IsCurrent store oldUuid := by
      rw [← findInstance_isSome, hfind]
      simp
    have hnoHistory : store.findHistory (some u) = none := by
      rwa [← Option.not_isSome_iff_eq_none, findHistory_isSome]
    rcases hhistory : store.findHistory (some oldUuid) with _ | history
    · -- The deprecated uuid is unknown: a new submission.
      have hnotFiled : ¬ IsFiled store oldUuid := by
        rw [← findHistory_isSome, hhistory]
        simp
      refine Or.inr (Or.inl ⟨by simp only [getInstance, hold, hfind, hnoHistory, hhistory, hnew],
        fun h => hnotFiled (hconflict h).2⟩)
    · -- The deprecated version was edited before.
      have hisFiled : IsFiled store oldUuid := by
        rw [← findHistory_isSome, hhistory]
        rfl
      have happlies : resolution = .lastWriteWins → request.mayEdit = true →
          AppliesConflict resolution store request := fun hresolution hedit =>
        ⟨hresolution, hedit, fun v hv => by
          obtain rfl : u = v := Option.some.inj (hxml.symm.trans hv)
          exact ⟨hcurrent, hfiled⟩, oldUuid, hdeprecated, hnonempty, hnotCurrent, hisFiled⟩
      have hmem : history ∈ store.histories := by
        simp only [FormStore.findHistory, Option.bind_some] at hhistory
        exact List.mem_of_find?_eq_some hhistory
      obtain ⟨i, hi, hpk⟩ := hlive.filed history hmem
      have hfound : (store.instanceByPk history.xformInstance).isSome = true := by
        rw [FormStore.instanceByPk, List.find?_isSome]
        exact ⟨i, hi, by simpa using hpk⟩
      obtain ⟨edited, hedited⟩ := Option.isSome_iff_exists.mp hfound
      have hget : getInstance resolution store (some u) request
          = handleEditConflict resolution store edited oldUuid (some u) request := by
        simp only [getInstance, hold, hfind, hnoHistory, hhistory, hedited]
      rw [hget]
      cases resolution with
      | reject => exact Or.inl ⟨_, rfl, fun h => by simpa using h.1⟩
      | unsupported name => exact Or.inl ⟨_, rfl, fun h => by simpa using h.1⟩
      | lastWriteWins =>
          by_cases hedit : request.mayEdit = true
          · exact Or.inr (Or.inr ⟨edited, (instanceByPk_eq_some hedited).1, oldUuid,
              editInstance_of_unknown request hxml hne hcurrent edited oldUuid hedit,
              Or.inr ⟨happlies rfl hedit, hnotCurrent, hisFiled⟩⟩)
          · refine Or.inl ⟨.permissionDenied, ?_, fun h => hedit h.2.1⟩
            simp [handleEditConflict, editInstance, hedit]
            rfl
  · -- The deprecated uuid is the one of an instance: an ordinary edit.
    obtain ⟨hmem, huuid⟩ := findInstance_eq_some hfind
    have hnot : ¬ AppliesConflict resolution store request := fun h =>
      (hconflict h).1 ⟨edited, hmem, huuid⟩
    have hget : getInstance resolution store (some u) request
        = editInstance store edited oldUuid (some u) request := by
      simp only [getInstance, hold, hfind]
    rw [hget]
    by_cases hedit : request.mayEdit = true
    · exact Or.inr (Or.inr ⟨edited, hmem, oldUuid,
        editInstance_of_unknown request hxml hne hcurrent edited oldUuid hedit,
        Or.inl ⟨huuid, hnot⟩⟩)
    · refine Or.inl ⟨.permissionDenied, ?_, hnot⟩
      simp [editInstance, hedit]
      rfl

/-! ### Runs -/

/-- The store and the payloads that it accepted. -/
structure ReceivedStore (Xml : Type) where
  store : FormStore Xml := {}
  accepted : List Xml := []

/-- One submission: a payload that is not refused is accepted. -/
def receiveStep (resolution : EditConflictResolution) (s : ReceivedStore Xml)
    (request : SubmissionRequest Xml) (s' : ReceivedStore Xml) : Prop :=
  match createInstance resolution s.store request with
  | .ok (store, _) => s' = ⟨store, s.accepted ++ [request.xml]⟩
  | .error _ => s' = s

/-- Every accepted payload, sent again by anyone, is answered as a duplicate and leaves the
store as it is. -/
def RetransmissionSafe (resolution : EditConflictResolution) (s : ReceivedStore Xml) : Prop :=
  ∀ request : SubmissionRequest Xml, request.xml ∈ s.accepted →
    createInstance resolution s.store request = .ok (s.store, .duplicate)

/-- The invariant of a run: an accepted payload has its uuid in the store, the uuid of an
instance is that of an accepted payload, and no uuid is both current and filed. -/
structure Received (s : ReceivedStore Xml) : Prop where
  isLive : IsLive s.store
  uuid_nodup : (s.store.instances.map (·.uuid)).Nodup
  known : ∀ xml ∈ s.accepted, ∃ u, getUuidFromXml xml = some u ∧
    (IsCurrent s.store u ∨ IsFiled s.store u)
  fromAccepted : ∀ i ∈ s.store.instances, ∃ xml ∈ s.accepted,
    getUuidFromXml xml = some i.uuid
  notFiled : ∀ i ∈ s.store.instances, ¬ IsFiled s.store i.uuid

/-- Under the invariant, a run is safe. -/
theorem Received.retransmissionSafe {s : ReceivedStore Xml} (hs : Received s)
    (resolution : EditConflictResolution) : RetransmissionSafe resolution s := by
  intro request haccepted
  obtain ⟨u, hxml, hknown⟩ := hs.known request.xml haccepted
  exact createInstance_of_known resolution hs.isLive request hxml hknown

/-- A duplicate keeps the invariant. -/
theorem Received.duplicate {s : ReceivedStore Xml} (hs : Received s) (xml : Xml) {u : String}
    (hxml : getUuidFromXml xml = some u) (hknown : IsCurrent s.store u ∨ IsFiled s.store u) :
    Received ⟨s.store, s.accepted ++ [xml]⟩ where
  isLive := hs.isLive
  uuid_nodup := hs.uuid_nodup
  known := by
    intro other hother
    rcases List.mem_append.mp hother with hold | hnew
    · exact hs.known other hold
    · rw [List.mem_singleton] at hnew
      exact ⟨u, hnew ▸ hxml, hknown⟩
  fromAccepted := by
    intro i hi
    obtain ⟨other, hother, huuid⟩ := hs.fromAccepted i hi
    exact ⟨other, List.mem_append_left _ hother, huuid⟩
  notFiled := hs.notFiled

/-- A new submission keeps the invariant. -/
theorem Received.created {s : ReceivedStore Xml} (hs : Received s) (xml : Xml) {u : String}
    (hxml : getUuidFromXml xml = some u) (hcurrent : ¬ IsCurrent s.store u)
    (hfiled : ¬ IsFiled s.store u) :
    Received ⟨withCreated s.store u xml, s.accepted ++ [xml]⟩ := by
  have hmem : ∀ i, i ∈ (withCreated s.store u xml).instances ↔
      i ∈ s.store.instances ∨ i = newInstance s.store u xml := by
    simp [withCreated]
  refine ⟨⟨?_, ?_, ?_, ?_⟩, ?_, ?_, ?_, ?_⟩
  · intro i hi
    rcases (hmem i).mp hi with hold | rfl
    · exact hs.isLive.live i hold
    · rfl
  · intro i hi
    show i.pk < s.store.nextPk + 1
    rcases (hmem i).mp hi with hold | rfl
    · have := hs.isLive.pk_lt i hold
      omega
    · exact Nat.lt_succ_self _
  · show ((s.store.instances ++ [newInstance s.store u xml]).map (·.pk)).Nodup
    rw [List.map_append, List.map_singleton, ← List.concat_eq_append,
      List.nodup_concat]
    refine ⟨fun hpk => ?_, hs.isLive.pk_nodup⟩
    obtain ⟨i, hi, hpk⟩ := List.mem_map.mp hpk
    exact Nat.lt_irrefl _ (hpk ▸ hs.isLive.pk_lt i hi)
  · intro h hh
    obtain ⟨i, hi, hpk⟩ := hs.isLive.filed h hh
    exact ⟨i, (hmem i).mpr (Or.inl hi), hpk⟩
  · show ((s.store.instances ++ [newInstance s.store u xml]).map (·.uuid)).Nodup
    rw [List.map_append, List.map_singleton, ← List.concat_eq_append,
      List.nodup_concat]
    refine ⟨fun huuid => ?_, hs.uuid_nodup⟩
    obtain ⟨i, hi, huuid⟩ := List.mem_map.mp huuid
    exact hcurrent ⟨i, hi, huuid⟩
  · intro other hother
    rcases List.mem_append.mp hother with hold | hnew
    · obtain ⟨v, hv, hknown⟩ := hs.known other hold
      refine ⟨v, hv, hknown.imp_left ?_⟩
      rintro ⟨i, hi, huuid⟩
      exact ⟨i, (hmem i).mpr (Or.inl hi), huuid⟩
    · rw [List.mem_singleton] at hnew
      exact ⟨u, hnew ▸ hxml, Or.inl ⟨_, (hmem _).mpr (Or.inr rfl), rfl⟩⟩
  · intro i hi
    rcases (hmem i).mp hi with hold | rfl
    · obtain ⟨other, hother, huuid⟩ := hs.fromAccepted i hold
      exact ⟨other, List.mem_append_left _ hother, huuid⟩
    · exact ⟨xml, List.mem_append_right _ (List.mem_singleton_self _), hxml⟩
  · intro i hi
    rcases (hmem i).mp hi with hold | rfl
    · exact hs.notFiled i hold
    · exact hfiled

/-- The rows after an edit: the others, and the edited one with its new values. -/
theorem mem_withEdited {store : FormStore Xml} (hnodup : (store.instances.map (·.pk)).Nodup)
    {edited : Instance Xml} (hmem : edited ∈ store.instances) (oldUuid u : String) (xml : Xml)
    (i : Instance Xml) :
    i ∈ (withEdited store edited oldUuid u xml).instances ↔
      (i ∈ store.instances ∧ i ≠ edited) ∨
        i = { edited with uuid := u, xml := xml, checksum := SubmissionXml.checksum xml } := by
  simp only [withEdited, List.mem_map]
  constructor
  · rintro ⟨j, hj, rfl⟩
    by_cases hpk : j.pk = edited.pk
    · exact Or.inr (if_pos hpk)
    · rw [if_neg hpk]
      exact Or.inl ⟨hj, fun h => hpk (h ▸ rfl)⟩
  · rintro (⟨hi, hne⟩ | rfl)
    · exact ⟨i, hi, if_neg fun hpk => hne (List.inj_on_of_nodup_map hnodup hi hmem hpk)⟩
    · exact ⟨edited, hmem, if_pos rfl⟩

/-- An edit keeps the primary keys. -/
theorem map_pk_withEdited (store : FormStore Xml) (edited : Instance Xml) (oldUuid u : String)
    (xml : Xml) :
    (withEdited store edited oldUuid u xml).instances.map (·.pk)
      = store.instances.map (·.pk) := by
  simp only [withEdited, List.map_map]
  refine List.map_congr_left fun i _ => ?_
  by_cases hpk : i.pk = edited.pk <;> simp [hpk]

/-- After an edit, the old uuid is filed and what was filed stays filed. -/
theorem isFiled_withEdited (store : FormStore Xml) (edited : Instance Xml)
    (oldUuid u v : String) (xml : Xml) :
    IsFiled (withEdited store edited oldUuid u xml) v ↔ IsFiled store v ∨ v = oldUuid := by
  simp only [IsFiled, withEdited, List.mem_append, List.mem_singleton]
  constructor
  · rintro ⟨h, hh | rfl, rfl⟩
    · exact Or.inl ⟨h, hh, rfl⟩
    · exact Or.inr rfl
  · rintro (⟨h, hh, hv⟩ | rfl)
    · exact ⟨h, Or.inl hh, hv⟩
    · exact ⟨_, Or.inr rfl, rfl⟩

/-- An edit under the uuid of the edited row keeps the invariant. -/
theorem Received.edited {s : ReceivedStore Xml} (hs : Received s) (xml : Xml) {u : String}
    (hxml : getUuidFromXml xml = some u) (hcurrent : ¬ IsCurrent s.store u)
    (hfiled : ¬ IsFiled s.store u) {edited : Instance Xml}
    (hmem : edited ∈ s.store.instances) :
    Received ⟨withEdited s.store edited edited.uuid u xml, s.accepted ++ [xml]⟩ := by
  have hrows := mem_withEdited hs.isLive.pk_nodup hmem edited.uuid u xml
  have hfiledIff := fun v => isFiled_withEdited s.store edited edited.uuid u v xml
  have hpks := map_pk_withEdited s.store edited edited.uuid u xml
  refine ⟨⟨?_, ?_, hpks ▸ hs.isLive.pk_nodup, ?_⟩, ?_, ?_, ?_, ?_⟩
  · intro i hi
    rcases (hrows i).mp hi with ⟨hold, -⟩ | rfl
    · exact hs.isLive.live i hold
    · exact hs.isLive.live edited hmem
  · intro i hi
    rcases (hrows i).mp hi with ⟨hold, -⟩ | rfl
    · exact hs.isLive.pk_lt i hold
    · exact hs.isLive.pk_lt edited hmem
  · intro h hh
    have hpk : h.xformInstance ∈ s.store.instances.map (·.pk) := by
      simp only [withEdited, List.mem_append, List.mem_singleton] at hh
      rcases hh with hh | rfl
      · obtain ⟨i, hi, hpk⟩ := hs.isLive.filed h hh
        exact List.mem_map.mpr ⟨i, hi, hpk⟩
      · exact List.mem_map.mpr ⟨edited, hmem, rfl⟩
    rw [← hpks] at hpk
    exact List.mem_map.mp hpk
  · -- Uuids stay unique: the new one is unknown.
    refine List.Nodup.map_on ?_ (List.Nodup.of_map _ (hpks ▸ hs.isLive.pk_nodup))
    intro i hi j hj huuid
    rcases (hrows i).mp hi with ⟨hi, hine⟩ | rfl <;> rcases (hrows j).mp hj with ⟨hj, hjne⟩ | rfl
    · exact List.inj_on_of_nodup_map hs.uuid_nodup hi hj huuid
    · exact absurd ⟨i, hi, huuid⟩ hcurrent
    · exact absurd ⟨j, hj, huuid.symm⟩ hcurrent
    · rfl
  · intro other hother
    rcases List.mem_append.mp hother with hold | hnew
    · obtain ⟨v, hv, hknown⟩ := hs.known other hold
      refine ⟨v, hv, ?_⟩
      rcases hknown with ⟨i, hi, rfl⟩ | hisFiled
      · by_cases heq : i = edited
        · exact Or.inr ((hfiledIff _).mpr (Or.inr (heq ▸ rfl)))
        · exact Or.inl ⟨i, (hrows i).mpr (Or.inl ⟨hi, heq⟩), rfl⟩
      · exact Or.inr ((hfiledIff v).mpr (Or.inl hisFiled))
    · rw [List.mem_singleton] at hnew
      exact ⟨u, hnew ▸ hxml, Or.inl ⟨_, (hrows _).mpr (Or.inr rfl), rfl⟩⟩
  · intro i hi
    rcases (hrows i).mp hi with ⟨hold, -⟩ | rfl
    · obtain ⟨other, hother, huuid⟩ := hs.fromAccepted i hold
      exact ⟨other, List.mem_append_left _ hother, huuid⟩
    · exact ⟨xml, List.mem_append_right _ (List.mem_singleton_self _), hxml⟩
  · intro i hi hisFiled
    rcases (hrows i).mp hi with ⟨hold, hne⟩ | rfl
    · rcases (hfiledIff _).mp hisFiled with hbefore | huuid
      · exact hs.notFiled i hold hbefore
      · exact hne (List.inj_on_of_nodup_map hs.uuid_nodup hold hmem huuid)
    · rcases (hfiledIff u).mp hisFiled with hbefore | huuid
      · exact hfiled hbefore
      · exact hcurrent ⟨edited, hmem, huuid.symm⟩

/-- A step that applies no conflicting edit keeps the invariant. -/
theorem received_step (resolution : EditConflictResolution) {s s' : ReceivedStore Xml}
    (request : SubmissionRequest Xml) (hs : Received s)
    (hown : ∃ u, getUuidFromXml request.xml = some u ∧ u ≠ "")
    (hstep : receiveStep resolution s request s')
    (hconflict : ¬ AppliesConflict resolution s.store request) : Received s' := by
  obtain ⟨u, hxml, hne⟩ := hown
  simp only [receiveStep] at hstep
  rcases createInstance_cases resolution hs.isLive request hxml hne with
    ⟨hknown, h⟩ | ⟨hcurrent, hfiled, ⟨error, h, -⟩ | ⟨h, -⟩ | ⟨edited, hmem, oldUuid, h, hcase⟩⟩
  · rw [h] at hstep
    subst hstep
    exact hs.duplicate request.xml hxml hknown
  · rw [h] at hstep
    subst hstep
    exact hs
  · rw [h] at hstep
    subst hstep
    exact hs.created request.xml hxml hcurrent hfiled
  · rw [h] at hstep
    subst hstep
    rcases hcase with ⟨rfl, -⟩ | ⟨happlies, -⟩
    · exact hs.edited request.xml hxml hcurrent hfiled hmem
    · exact absurd happlies hconflict

/-- A step that applies a conflicting edit loses the uuid of the overwritten row: the payload
with that uuid is not recognised any more. -/
theorem not_retransmissionSafe_of_appliesConflict (resolution : EditConflictResolution)
    {s s' : ReceivedStore Xml} (request : SubmissionRequest Xml) (hs : Received s)
    (hown : ∃ u, getUuidFromXml request.xml = some u ∧ u ≠ "")
    (hstep : receiveStep resolution s request s')
    (hconflict : AppliesConflict resolution s.store request) :
    ¬ RetransmissionSafe resolution s' := by
  obtain ⟨u, hxml, hne⟩ := hown
  simp only [receiveStep] at hstep
  rcases createInstance_cases resolution hs.isLive request hxml hne with
    ⟨hknown, -⟩ | ⟨hcurrent, hfiled, ⟨error, -, hnot⟩ | ⟨-, hnot⟩ | ⟨edited, hmem, oldUuid, h, hcase⟩⟩
  · obtain ⟨hnotCurrent, hnotFiled⟩ := hconflict.2.2.1 u hxml
    exact absurd hknown (not_or.mpr ⟨hnotCurrent, hnotFiled⟩)
  · exact absurd hconflict hnot
  · exact absurd hconflict hnot
  rcases hcase with ⟨-, hnot⟩ | ⟨-, holdCurrent, holdFiled⟩
  · exact absurd hconflict hnot
  rw [h] at hstep
  subst hstep
  intro hsafe
  -- The payload that gave the overwritten row its uuid.
  obtain ⟨lost, hlost, hlostXml⟩ := hs.fromAccepted edited hmem
  have hduplicate := hsafe ⟨lost, true, ""⟩ (List.mem_append_left _ hlost)
  have hlostCurrent : ¬ IsCurrent (withEdited s.store edited oldUuid u request.xml)
      edited.uuid := by
    rintro ⟨i, hi, huuid⟩
    rcases (mem_withEdited hs.isLive.pk_nodup hmem oldUuid u request.xml i).mp hi with ⟨hi, hine⟩ | rfl
    · exact hine (List.inj_on_of_nodup_map hs.uuid_nodup hi hmem huuid)
    · exact hcurrent ⟨edited, hmem, huuid.symm⟩
  have hlostFiled : ¬ IsFiled (withEdited s.store edited oldUuid u request.xml)
      edited.uuid := by
    rw [isFiled_withEdited]
    rintro (hbefore | huuid)
    · exact hs.notFiled edited hmem hbefore
    · exact holdCurrent ⟨edited, hmem, huuid⟩
  exact createInstance_ne_duplicate resolution _ _ hlostXml hlostCurrent hlostFiled hduplicate

/-- A run from the empty form, of payloads with their own uuids, stays safe against
retransmission exactly when no step of it applies a conflicting edit. -/
theorem retransmissionSafe_iff (resolution : EditConflictResolution)
    (requests : List (SubmissionRequest Xml))
    (hown : ∀ request ∈ requests, ∃ u, getUuidFromXml request.xml = some u ∧ u ≠ "")
    (s : ReceivedStore Xml) :
    Run (Guarded (receiveStep resolution) fun _ _ s' => RetransmissionSafe resolution s')
        {} requests s ↔
      Run (Guarded (receiveStep resolution) fun s request _ =>
        ¬ AppliesConflict resolution s.store request) {} requests s := by
  have hempty : Received ({} : ReceivedStore Xml) :=
    ⟨⟨by simp, by simp, by simp, by simp⟩, by simp, by simp, by simp, by simp⟩
  refine Run.guarded_congr Received hempty ?_ ?_
  · intro s request s' hrequest hstep hs
    constructor
    · exact fun hsafe hconflict => not_retransmissionSafe_of_appliesConflict resolution request
        hs (hown request hrequest) hstep hconflict hsafe
    · exact fun hconflict => (received_step resolution request hs (hown request hrequest) hstep
        hconflict).retransmissionSafe resolution
  · intro s request s' hrequest hstep hconflict hs
    exact received_step resolution request hs (hown request hrequest) hstep hconflict

end

/-! ### A lost uuid -/

/-- A submission, an edit of it and a second edit of the first version. -/
def conflictingRequests : List (SubmissionRequest MetaXml) :=
  [⟨⟨"uuid:a", none⟩, true, ""⟩, ⟨⟨"uuid:b", some "uuid:a"⟩, true, ""⟩,
    ⟨⟨"uuid:c", some "uuid:a"⟩, true, ""⟩]

/-- With `last_write_wins`, the second edit of the same version overwrites the first one, and
the first edit is then not recognised as a duplicate. -/
theorem not_retransmissionSafe_conflictingRequests :
    ∃ s : ReceivedStore MetaXml,
      Run (receiveStep .lastWriteWins) {} conflictingRequests s ∧
        ⟨"uuid:b", some "uuid:a"⟩ ∈ s.accepted ∧ ¬ RetransmissionSafe .lastWriteWins s := by
  refine ⟨⟨⟨[⟨0, "c", ⟨"uuid:c", some "uuid:a"⟩, "uuid:c", none⟩],
      [⟨0, "a", ⟨"uuid:a", none⟩, "uuid:a"⟩, ⟨0, "a", ⟨"uuid:b", some "uuid:a"⟩, "uuid:b"⟩],
      1⟩, conflictingRequests.map (·.xml)⟩, ?_, by decide, ?_⟩
  · exact .cons rfl (.cons rfl (.cons rfl (.nil _)))
  · intro hsafe
    exact absurd (hsafe ⟨⟨"uuid:b", some "uuid:a"⟩, true, ""⟩ (by decide)) (by decide)

/-- Without the second edit, the run of the theorem is safe at each step. -/
theorem retransmissionSafe_firstEdit :
    Run (Guarded (receiveStep .lastWriteWins) fun _ _ s' =>
        RetransmissionSafe .lastWriteWins s') ({} : ReceivedStore MetaXml)
      [⟨⟨"uuid:a", none⟩, true, ""⟩, ⟨⟨"uuid:b", some "uuid:a"⟩, true, ""⟩]
      ⟨⟨[⟨0, "b", ⟨"uuid:b", some "uuid:a"⟩, "uuid:b", none⟩],
        [⟨0, "a", ⟨"uuid:a", none⟩, "uuid:a"⟩], 1⟩,
        [⟨"uuid:a", none⟩, ⟨"uuid:b", some "uuid:a"⟩]⟩ := by
  have hown : ∀ request ∈ [(⟨⟨"uuid:a", none⟩, true, ""⟩ : SubmissionRequest MetaXml),
      ⟨⟨"uuid:b", some "uuid:a"⟩, true, ""⟩],
      ∃ u, getUuidFromXml request.xml = some u ∧ u ≠ "" := by
    intro request hrequest
    simp only [List.mem_cons, List.not_mem_nil, or_false] at hrequest
    rcases hrequest with rfl | rfl
    · exact ⟨"a", by decide, by decide⟩
    · exact ⟨"b", by decide, by decide⟩
  refine (retransmissionSafe_iff .lastWriteWins _ hown _).mpr ?_
  refine .cons ⟨rfl, ?_⟩ (.cons ⟨rfl, ?_⟩ (.nil _))
  · rintro ⟨-, -, -, oldUuid, hold, -⟩
    exact absurd hold (by simp [getDeprecatedUuidFromXml, SubmissionXml.metaText])
  · rintro ⟨-, -, -, oldUuid, hold, -, hcurrent, -⟩
    obtain rfl : "a" = oldUuid := Option.some.inj hold
    exact hcurrent ⟨_, List.mem_cons_self, rfl⟩

end Onadata.Proofs
