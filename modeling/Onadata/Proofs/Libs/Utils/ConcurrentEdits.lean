import Onadata.Libs.Utils.ConcurrentRequests
import Onadata.Proofs.Libs.Utils.Retransmission

/-!
# `Onadata.Proofs.Libs.Utils.ConcurrentEdits`: edits of one version at the same time

Requests that deprecate the same version look it up without a lock. The run of the requests
has two parts. Before an edit is committed, the store is the one of the start, and the
requests are on their way to the edit (`BeforeEdit`). After it, no instance has the
deprecated uuid, and the other requests are on their way to the conflict (`AfterEdit`).

`endsWith_createInstance`: without other requests, the statements are `createInstance`.

`editedOnce_of_lookupAlone`: if no request looks the version up while another one is between
its lookup and its commit, the version is edited once. Otherwise both edit it, and the second
one overwrites the first (`not_editedOnce_racing`).
-/

set_option autoImplicit false

namespace Onadata.Proofs

open Onadata.Lib (Run Guarded Pool Exclusive)

section
variable {Xml : Type} [SubmissionXml Xml]

/-- A store with an instance that has the deprecated uuid. -/
structure HasVersion (store : FormStore Xml) (target : Instance Xml) : Prop where
  mem : target ∈ store.instances
  nonempty : target.uuid ≠ ""
  pk_nodup : (store.instances.map (·.pk)).Nodup
  uuid_nodup : (store.instances.map (·.uuid)).Nodup
  filed : ∀ h ∈ store.histories, ∃ i ∈ store.instances, i.pk = h.xformInstance

/-- A request that edits the version under a uuid that the form does not know. -/
structure NewEdit (store : FormStore Xml) (target : Instance Xml)
    (request : SubmissionRequest Xml) (u : String) : Prop where
  deprecated : getDeprecatedUuidFromXml request.xml = some target.uuid
  own : getUuidFromXml request.xml = some u
  nonempty : u ≠ ""
  notCurrent : ¬ IsCurrent store u
  notFiled : ¬ IsFiled store u
  mayEdit : request.mayEdit = true

/-- The history row of the version. -/
def versionHistory (target : Instance Xml) : InstanceHistory Xml :=
  ⟨target.pk, target.uuid, target.xml, target.checksum⟩

/-- The request has found the instance that it edits, and has not committed. -/
def Editing : RequestPhase Xml → Prop
  | .writeHistory _ _ | .save _ _ _ | .commit _ _ => True
  | _ => False

/-- The phases of a request before an edit is committed. -/
def BeforeEdit (target : Instance Xml) (request : SubmissionRequest Xml) :
    RequestPhase Xml → Prop
  | .duplicateCheck | .historyCheck | .lookup => True
  | .writeHistory edited oldUuid => edited = target ∧ oldUuid = target.uuid
  | .save row history answer =>
      row = editedRow request target ∧ history = some (versionHistory target) ∧
        answer = .edited target.pk
  | .commit write answer =>
      write = .saved (editedRow request target) (some (versionHistory target)) ∧
        answer = .edited target.pk
  | _ => False

/-- The phases of another request after the edit with uuid `edited` is committed. -/
def AfterEdit (store : FormStore Xml) (target : Instance Xml) (edited : String)
    (request : SubmissionRequest Xml) : RequestPhase Xml → Prop
  | .duplicateCheck | .historyCheck | .lookup => True
  | .appliedCheck oldUuid | .conflictCheck oldUuid => oldUuid = target.uuid
  | .load pk purpose =>
      purpose = .conflict target.uuid ∧ ∃ i ∈ store.instances, i.pk = pk
  | .done (.error error) => error = .instanceEditConflict
  | .done (.ok answer) => answer = .duplicate ∧ getUuidFromXml request.xml = some edited
  | _ => False

/-! ### A request alone -/

/-- A request without others comes from the phase to this result: the store and the answer, or
the store of the start and an error. -/
def EndsWith (resolution : EditConflictResolution) (store : FormStore Xml)
    (request : SubmissionRequest Xml) (db : EditDb Xml) (phase : RequestPhase Xml)
    (result : Except SubmissionError (FormStore Xml × SubmissionResult)) : Prop :=
  ∃ schedule db', Run (Pool.Step (RequestStep resolution)) ⟨db, [⟨request, phase⟩]⟩ schedule
      ⟨db', [⟨request, .done (result.map (·.2))⟩]⟩ ∧
    db'.store = match result with
      | .ok (store', _) => store'
      | .error _ => store

section Alone
variable {resolution : EditConflictResolution} {store : FormStore Xml}
  {request : SubmissionRequest Xml} {db db' : EditDb Xml} {phase phase' : RequestPhase Xml}
  {result : Except SubmissionError (FormStore Xml × SubmissionResult)}

/-- A statement and what follows it. -/
theorem EndsWith.step (hstep : requestStep resolution db request phase = some (db', phase'))
    (h : EndsWith resolution store request db' phase' result) :
    EndsWith resolution store request db phase result := by
  obtain ⟨schedule, last, hrun, hlast⟩ := h
  exact ⟨0 :: schedule, last,
    .cons ⟨⟨request, phase⟩, ⟨request, phase'⟩, rfl, ⟨hstep, rfl⟩, rfl⟩ hrun, hlast⟩

/-- A request that is answered. -/
theorem EndsWith.ok {answer : SubmissionResult} :
    EndsWith resolution store request db (.done (.ok answer)) (.ok (db.store, answer)) :=
  ⟨[], db, .nil _, rfl⟩

/-- A request that is refused. -/
theorem EndsWith.error {error : SubmissionError} :
    EndsWith resolution store request { store := store } (.done (.error error))
      (.error error) :=
  ⟨[], _, .nil _, rfl⟩

/-- A save alone is refused if another instance has the uuid. -/
theorem endsWith_save_of_used {row : Instance Xml}
    (hused : (store.instances.any fun i => i.pk ≠ row.pk && i.uuid = row.uuid) = true)
    (history : Option (InstanceHistory Xml)) (answer : SubmissionResult) :
    EndsWith resolution store request { store := store } (.save row history answer)
      (.error .integrityError) := by
  refine .step ?_ .error
  rw [requestStep, if_neg (by simp), if_pos hused]
  rfl

/-- A save alone, if no other instance has the uuid. -/
theorem endsWith_save_of_free {row : Instance Xml}
    (hfree : ¬ (store.instances.any fun i => i.pk ≠ row.pk && i.uuid = row.uuid) = true)
    (history : Option (InstanceHistory Xml)) (answer : SubmissionResult) :
    EndsWith resolution store request { store := store } (.save row history answer)
      (.ok ({ store with
        instances := store.instances.map fun i => if i.pk = row.pk then row else i
        histories := store.histories ++ history.toList }, answer)) := by
  have hsave : requestStep resolution { store := store } request (.save row history answer) =
      some (⟨store, [row.pk], [row.uuid]⟩, .commit (.saved row history) answer) := by
    rw [requestStep, if_neg (by simp), if_neg hfree]
  exact .step hsave (.step rfl .ok)

/-- An edit alone is `editInstance`. -/
theorem endsWith_startEdit (edited : Instance Xml) (oldUuid : String) :
    EndsWith resolution store request { store := store } (startEdit request edited oldUuid)
      (editInstance store edited oldUuid (getUuidFromXml request.xml) request) := by
  unfold startEdit editInstance
  split
  · exact .error
  · refine .step rfl ?_
    simp only [FormStore.save]
    split
    · rename_i hused
      exact endsWith_save_of_used hused _ _
    · rename_i hfree
      exact endsWith_save_of_free hfree _ _

/-- A creation alone is `createNewInstance`. -/
theorem endsWith_create :
    EndsWith resolution store request { store := store } .create
      (createNewInstance store request) := by
  unfold createNewInstance
  simp only [FormStore.create]
  split
  · rename_i hused
    refine .step ?_ .error
    rw [requestStep]
    simp only [List.not_mem_nil, if_false, hused, if_true]
    rfl
  · rename_i hfree
    let uuid := setUuid none request.xml request.generatedUuid
    let created : Instance Xml := newInstance store uuid request.xml
    have hcreate : requestStep resolution { store := store } request .create =
        some (⟨{ store with nextPk := store.nextPk + 1 }, [], [uuid]⟩,
          .commit (.created created) (.created created.pk)) := by
      rw [requestStep]
      simp only [List.not_mem_nil, if_false, hfree]
      rfl
    exact .step hcreate (.step rfl .ok)

/-- Alone, an instance that is loaded and saved again stays as it is. -/
theorem endsWith_resave (hpks : (store.instances.map (·.pk)).Nodup)
    (huuids : (store.instances.map (·.uuid)).Nodup) {pk : Nat} {row : Instance Xml}
    (hrow : store.instanceByPk pk = some row) (answer : SubmissionResult) :
    EndsWith resolution store request { store := store } (.load pk (.resave answer))
      (.ok (store, answer)) := by
  obtain ⟨hmem, -⟩ := instanceByPk_eq_some hrow
  have hfree : ¬ (store.instances.any fun i => i.pk ≠ row.pk && i.uuid = row.uuid) = true := by
    rw [List.any_eq_true]
    rintro ⟨i, hi, hused⟩
    rw [Bool.and_eq_true, decide_eq_true_eq, decide_eq_true_eq] at hused
    exact hused.1 (congrArg Instance.pk (List.inj_on_of_nodup_map huuids hi hmem hused.2))
  have hsame : (store.instances.map fun i => if i.pk = row.pk then row else i)
      = store.instances := by
    refine (List.map_congr_left fun i hi => ?_).trans (List.map_id store.instances)
    split
    · rename_i heq
      exact (List.inj_on_of_nodup_map hpks hi hmem heq).symm
    · rfl
  have hload : requestStep resolution { store := store } request (.load pk (.resave answer)) =
      some ({ store := store }, .save row none answer) := by
    simp only [requestStep, hrow]
  have hsave : EndsWith resolution store request { store := store } (.save row none answer) _ :=
    endsWith_save_of_free hfree none answer
  rw [hsame, Option.toList_none, List.append_nil] at hsave
  exact .step hload hsave

/-- A conflicting edit alone is `handleEditConflict`. -/
theorem endsWith_conflict {pk : Nat} {edited : Instance Xml}
    (hedited : store.instanceByPk pk = some edited) (oldUuid : String) :
    EndsWith resolution store request { store := store } (.load pk (.conflict oldUuid))
      (handleEditConflict resolution store edited oldUuid (getUuidFromXml request.xml)
        request) := by
  cases resolution with
  | lastWriteWins =>
      refine .step ?_ (endsWith_startEdit edited oldUuid)
      simp only [requestStep, hedited]
  | reject =>
      refine .step ?_ .error
      simp only [requestStep, hedited]
      rfl
  | unsupported name =>
      refine .step ?_ .error
      simp only [requestStep, hedited]
      rfl

omit [SubmissionXml Xml] in
/-- A history row has its instance. -/
theorem exists_instanceByPk
    (hfiled : ∀ h ∈ store.histories, ∃ i ∈ store.instances, i.pk = h.xformInstance)
    {history : InstanceHistory Xml} (hmem : history ∈ store.histories) :
    ∃ row, store.instanceByPk history.xformInstance = some row := by
  obtain ⟨i, hi, hpk⟩ := hfiled history hmem
  exact Option.isSome_iff_exists.mp (List.find?_isSome.mpr ⟨i, hi, decide_eq_true hpk⟩)

/-- From the lookup on, a request alone is `getInstance`. -/
theorem endsWith_lookup (hpks : (store.instances.map (·.pk)).Nodup)
    (huuids : (store.instances.map (·.uuid)).Nodup)
    (hfiled : ∀ h ∈ store.histories, ∃ i ∈ store.instances, i.pk = h.xformInstance) :
    EndsWith resolution store request { store := store } .lookup
      (getInstance resolution store (getUuidFromXml request.xml) request) := by
  unfold getInstance
  split
  · rename_i hold
    refine .step ?_ endsWith_create
    simp only [requestStep, hold]
  · rename_i oldUuid hold
    split
    · rename_i edited hedited
      refine .step ?_ (endsWith_startEdit edited oldUuid)
      simp only [requestStep, hold, hedited]
    · rename_i hnone
      have hlookup : requestStep resolution { store := store } request .lookup =
          some ({ store := store }, .appliedCheck oldUuid) := by
        simp only [requestStep, hold, hnone]
      refine .step hlookup ?_
      split
      · -- the edit was applied already
        rename_i history hhistory
        obtain ⟨u, -, hfind⟩ := Option.bind_eq_some_iff.mp hhistory
        obtain ⟨row, hrow⟩ := exists_instanceByPk hfiled (List.mem_of_find?_eq_some hfind)
        refine .step ?_ (endsWith_resave hpks huuids hrow _)
        simp only [requestStep, hhistory]
      · rename_i hnew
        have happlied : requestStep resolution { store := store } request
            (.appliedCheck oldUuid) = some ({ store := store }, .conflictCheck oldUuid) := by
          simp only [requestStep, hnew]
        refine .step happlied ?_
        split
        · rename_i hunknown
          refine .step ?_ endsWith_create
          simp only [requestStep, hunknown]
        · rename_i history hhistory
          have hconflict : requestStep resolution { store := store } request
              (.conflictCheck oldUuid) =
              some ({ store := store }, .load history.xformInstance (.conflict oldUuid)) := by
            simp only [requestStep, hhistory]
          refine .step hconflict ?_
          split
          · rename_i edited hedited
            exact endsWith_conflict hedited oldUuid
          · rename_i hmissing
            refine .step ?_ .error
            simp only [requestStep, hmissing]
            rfl

/-- Alone, the statements of a request are `createInstance`. -/
theorem endsWith_createInstance (hpks : (store.instances.map (·.pk)).Nodup)
    (huuids : (store.instances.map (·.uuid)).Nodup)
    (hfiled : ∀ h ∈ store.histories, ∃ i ∈ store.instances, i.pk = h.xformInstance) :
    EndsWith resolution store request { store := store } .duplicateCheck
      (createInstance resolution store request) := by
  unfold createInstance
  dsimp only
  split
  · rename_i hfound
    have hcheck : requestStep resolution { store := store } request .duplicateCheck =
        some ({ store := store }, .done (.ok .duplicate)) := by
      rw [requestStep, if_pos hfound]
    exact .step hcheck .ok
  · rename_i hnotFound
    have hcheck : requestStep resolution { store := store } request .duplicateCheck =
        some ({ store := store }, .historyCheck) := by
      rw [requestStep, if_neg hnotFound]
    refine .step hcheck ?_
    split
    · rename_i hlive
      obtain ⟨history, hhistory⟩ := Option.isSome_iff_exists.mp hlive
      obtain ⟨u, -, hfind⟩ := Option.bind_eq_some_iff.mp hhistory
      obtain ⟨row, hrow⟩ := exists_instanceByPk hfiled (List.mem_of_find?_eq_some hfind)
      refine .step ?_ (endsWith_resave hpks huuids hrow .duplicate)
      simp only [requestStep, hhistory]
    · rename_i hnone
      rw [Option.not_isSome_iff_eq_none] at hnone
      refine .step ?_ (endsWith_lookup hpks huuids hfiled)
      simp only [requestStep, hnone]

end Alone

/-! ### The store of the start -/

section Lookups
omit [SubmissionXml Xml]

/-- An unknown uuid is that of no instance. -/
theorem findInstance_eq_none {store : FormStore Xml} {uuid : String}
    (h : ¬ IsCurrent store uuid) : store.findInstance (some uuid) = none := by
  rwa [← Option.not_isSome_iff_eq_none, findInstance_isSome]

/-- An unknown uuid is that of no history row. -/
theorem findHistory_eq_none {store : FormStore Xml} {uuid : String}
    (h : ¬ IsFiled store uuid) : store.findHistory (some uuid) = none := by
  rwa [← Option.not_isSome_iff_eq_none, findHistory_isSome]

/-- An unknown uuid is that of no history row of a live instance. -/
theorem findLiveHistory_eq_none {store : FormStore Xml} {uuid : String}
    (h : ¬ IsFiled store uuid) : store.findLiveHistory (some uuid) = none := by
  simp only [FormStore.findLiveHistory, Option.bind_some, List.find?_eq_none, Bool.and_eq_true,
    decide_eq_true_eq, not_and]
  exact fun history hmem huuid => absurd ⟨history, hmem, huuid⟩ h

/-- The version is found under its uuid. -/
theorem HasVersion.findInstance {store : FormStore Xml} {target : Instance Xml}
    (h : HasVersion store target) : store.findInstance (some target.uuid) = some target := by
  have hsome : (store.findInstance (some target.uuid)).isSome = true :=
    (findInstance_isSome store target.uuid).mpr ⟨target, h.mem, rfl⟩
  obtain ⟨found, hfound⟩ := Option.isSome_iff_exists.mp hsome
  obtain ⟨hmem, huuid⟩ := findInstance_eq_some hfound
  rw [hfound, List.inj_on_of_nodup_map h.uuid_nodup hmem h.mem huuid]

end Lookups

/-- Before an edit, a statement of a request changes no committed row and leads on, and only
the lookup leads to the edit. The commit makes the edit. -/
theorem beforeEdit_step {resolution : EditConflictResolution} {store : FormStore Xml}
    {target : Instance Xml} (hstore : HasVersion store target) {db db' : EditDb Xml}
    {request : SubmissionRequest Xml} {phase phase' : RequestPhase Xml} {u : String}
    (hrequest : NewEdit store target request u) (hdb : db.store = store)
    (hbefore : BeforeEdit target request phase)
    (hstep : requestStep resolution db request phase = some (db', phase')) :
    (db'.store = store ∧ BeforeEdit target request phase' ∧
      (Editing phase' → Editing phase ∨ phase = .lookup)) ∨
    (Editing phase ∧ phase' = .done (.ok (.edited target.pk)) ∧
      db'.store = withEdited store target target.uuid u request.xml) := by
  have huuid : setUuid (getUuidFromXml request.xml) request.xml request.generatedUuid = u :=
    setUuid_of_some _ _ u _ hrequest.own hrequest.nonempty (Or.inr hrequest.own)
  cases phase with
  | duplicateCheck =>
      rw [requestStep, hrequest.own, hdb, findInstance_eq_none hrequest.notCurrent] at hstep
      obtain ⟨rfl, rfl⟩ := Prod.mk.inj (Option.some.inj hstep)
      exact Or.inl ⟨hdb, trivial, False.elim⟩
  | historyCheck =>
      rw [requestStep, hrequest.own, hdb, findLiveHistory_eq_none hrequest.notFiled] at hstep
      obtain ⟨rfl, rfl⟩ := Prod.mk.inj (Option.some.inj hstep)
      exact Or.inl ⟨hdb, trivial, False.elim⟩
  | lookup =>
      have hdeprecated : (some target.uuid).filter (fun text => decide (text ≠ "")) =
          some target.uuid := by
        simp [Option.filter, hstore.nonempty]
      simp only [requestStep, hrequest.deprecated, hdeprecated, hdb, hstore.findInstance,
        startEdit, hrequest.mayEdit, Bool.not_true, Bool.false_eq_true, if_false] at hstep
      obtain ⟨rfl, rfl⟩ := Prod.mk.inj (Option.some.inj hstep)
      exact Or.inl ⟨hdb, ⟨rfl, rfl⟩, fun _ => Or.inr rfl⟩
  | writeHistory edited oldUuid =>
      obtain ⟨rfl, rfl⟩ := hbefore
      obtain ⟨rfl, rfl⟩ := Prod.mk.inj (Option.some.inj hstep)
      exact Or.inl ⟨hdb, ⟨rfl, rfl, rfl⟩, fun _ => Or.inl trivial⟩
  | save row history answer =>
      obtain ⟨rfl, rfl, rfl⟩ := hbefore
      -- no other instance has the uuid
      have hfree : (db.store.instances.any fun i => i.pk ≠ (editedRow request target).pk &&
          i.uuid = (editedRow request target).uuid) = false := by
        rw [List.any_eq_false]
        intro i hi hused
        rw [Bool.and_eq_true, decide_eq_true_eq, decide_eq_true_eq] at hused
        exact hrequest.notCurrent ⟨i, hdb ▸ hi, hused.2.trans huuid⟩
      rw [requestStep, hfree] at hstep
      split at hstep
      · cases hstep
      · obtain ⟨rfl, rfl⟩ := Prod.mk.inj (Option.some.inj hstep)
        exact Or.inl ⟨hdb, ⟨rfl, rfl⟩, fun _ => Or.inl trivial⟩
  | commit write answer =>
      obtain ⟨rfl, rfl⟩ := hbefore
      obtain ⟨rfl, rfl⟩ := Prod.mk.inj (Option.some.inj hstep)
      refine Or.inr ⟨trivial, rfl, ?_⟩
      subst hdb
      unfold withEdited EditDb.commit editedRow
      rw [huuid]
      rfl
  | appliedCheck _ => exact hbefore.elim
  | conflictCheck _ => exact hbefore.elim
  | load _ _ => exact hbefore.elim
  | create => exact hbefore.elim
  | done _ => exact hbefore.elim

/-! ### The store after the edit -/

/-- After the edit, no instance has the deprecated uuid. -/
theorem not_isCurrent_withEdited {store : FormStore Xml} {target : Instance Xml}
    (hstore : HasVersion store target) {v : String} (hnotCurrent : ¬ IsCurrent store v)
    (xml : Xml) : ¬ IsCurrent (withEdited store target target.uuid v xml) target.uuid := by
  rintro ⟨i, hi, huuid⟩
  rcases (mem_withEdited hstore.pk_nodup hstore.mem _ v xml i).mp hi with ⟨hi, hne⟩ | rfl
  · exact hne (List.inj_on_of_nodup_map hstore.uuid_nodup hi hstore.mem huuid)
  · exact hnotCurrent ⟨target, hstore.mem, huuid.symm⟩

/-- Of the uuids that were unknown, the edit makes its own one known. -/
theorem eq_of_isCurrent_withEdited {store : FormStore Xml} {target : Instance Xml}
    (hstore : HasVersion store target) {u v : String} (hnotCurrent : ¬ IsCurrent store u)
    {xml : Xml} (h : IsCurrent (withEdited store target target.uuid v xml) u) : u = v := by
  obtain ⟨i, hi, rfl⟩ := h
  rcases (mem_withEdited hstore.pk_nodup hstore.mem _ v xml i).mp hi with ⟨hi, -⟩ | rfl
  · exact absurd ⟨i, hi, rfl⟩ hnotCurrent
  · rfl

/-- The uuid of a new edit is not filed by another edit. -/
theorem NewEdit.not_isFiled_withEdited {store : FormStore Xml} {target : Instance Xml}
    (hstore : HasVersion store target) {request : SubmissionRequest Xml} {u : String}
    (h : NewEdit store target request u) (v : String) (xml : Xml) :
    ¬ IsFiled (withEdited store target target.uuid v xml) u := by
  rw [isFiled_withEdited, not_or]
  exact ⟨h.notFiled, fun heq => h.notCurrent ⟨target, hstore.mem, heq.symm⟩⟩

/-- A history row that is found after the edit has its instance. -/
theorem exists_instance_of_findHistory {store : FormStore Xml} {target : Instance Xml}
    (hstore : HasVersion store target) {v uuid : String} {xml : Xml}
    {history : InstanceHistory Xml}
    (h : (withEdited store target target.uuid v xml).findHistory (some uuid) = some history) :
    ∃ i ∈ store.instances, i.pk = history.xformInstance := by
  have hmem : history ∈ store.histories ++ [versionHistory target] :=
    List.mem_of_find?_eq_some h
  rcases List.mem_append.mp hmem with hold | hnew
  · exact hstore.filed history hold
  · rw [List.mem_singleton.mp hnew]
    exact ⟨target, hstore.mem, rfl⟩

/-- The instances of the start are still found by their primary keys. -/
theorem instanceByPk_withEdited_ne_none {store : FormStore Xml} (target : Instance Xml)
    (v : String) (xml : Xml) {pk : Nat} (h : ∃ i ∈ store.instances, i.pk = pk) :
    (withEdited store target target.uuid v xml).instanceByPk pk ≠ none := by
  obtain ⟨i, hi, rfl⟩ := h
  have hpk : i.pk ∈ (withEdited store target target.uuid v xml).instances.map (·.pk) := by
    rw [map_pk_withEdited]
    exact List.mem_map_of_mem hi
  obtain ⟨j, hj, hjpk⟩ := List.mem_map.mp hpk
  intro hnone
  exact List.find?_eq_none.mp hnone j hj (decide_eq_true hjpk)

/-- After the edit, a statement of another request changes no committed row and leads to the
conflict, or to the duplicate if the request has the uuid of the edit. -/
theorem afterEdit_step {store : FormStore Xml} {target : Instance Xml}
    (hstore : HasVersion store target) {db db' : EditDb Xml} {request : SubmissionRequest Xml}
    {phase phase' : RequestPhase Xml} {u v : String} (hrequest : NewEdit store target request u)
    (hnotCurrent : ¬ IsCurrent store v) {xml : Xml}
    (hdb : db.store = withEdited store target target.uuid v xml)
    (hafter : AfterEdit store target v request phase)
    (hstep : requestStep .reject db request phase = some (db', phase')) :
    db'.store = db.store ∧ AfterEdit store target v request phase' := by
  have hnotFiled := hrequest.not_isFiled_withEdited hstore v xml
  cases phase with
  | duplicateCheck =>
      rw [requestStep, hrequest.own, hdb] at hstep
      split at hstep
      · rename_i hfound
        obtain ⟨rfl, rfl⟩ := Prod.mk.inj (Option.some.inj hstep)
        have heq := eq_of_isCurrent_withEdited hstore hrequest.notCurrent
          ((findInstance_isSome _ u).mp hfound)
        exact ⟨rfl, rfl, heq ▸ hrequest.own⟩
      · obtain ⟨rfl, rfl⟩ := Prod.mk.inj (Option.some.inj hstep)
        exact ⟨rfl, trivial⟩
  | historyCheck =>
      rw [requestStep, hrequest.own, hdb, findLiveHistory_eq_none hnotFiled] at hstep
      obtain ⟨rfl, rfl⟩ := Prod.mk.inj (Option.some.inj hstep)
      exact ⟨rfl, trivial⟩
  | lookup =>
      have hdeprecated : (some target.uuid).filter (fun text => decide (text ≠ "")) =
          some target.uuid := by
        simp [Option.filter, hstore.nonempty]
      simp only [requestStep, hrequest.deprecated, hdeprecated, hdb,
        findInstance_eq_none (not_isCurrent_withEdited hstore hnotCurrent xml)] at hstep
      obtain ⟨rfl, rfl⟩ := Prod.mk.inj (Option.some.inj hstep)
      exact ⟨rfl, rfl⟩
  | appliedCheck oldUuid =>
      obtain rfl := hafter
      rw [requestStep, hrequest.own, hdb, findHistory_eq_none hnotFiled] at hstep
      obtain ⟨rfl, rfl⟩ := Prod.mk.inj (Option.some.inj hstep)
      exact ⟨rfl, rfl⟩
  | conflictCheck oldUuid =>
      obtain rfl := hafter
      rw [requestStep, hdb] at hstep
      split at hstep
      · rename_i history hfound
        obtain ⟨rfl, rfl⟩ := Prod.mk.inj (Option.some.inj hstep)
        exact ⟨rfl, rfl, exists_instance_of_findHistory hstore hfound⟩
      · -- the edit has filed the deprecated uuid
        rename_i hnone
        have hisFiled : IsFiled (withEdited store target target.uuid v xml) target.uuid :=
          (isFiled_withEdited store target target.uuid v target.uuid xml).mpr (Or.inr rfl)
        rw [← findHistory_isSome, hnone] at hisFiled
        cases hisFiled
  | load pk purpose =>
      obtain ⟨rfl, hpk⟩ := hafter
      obtain ⟨row, hrow⟩ :=
        Option.ne_none_iff_exists'.mp (instanceByPk_withEdited_ne_none target v xml hpk)
      simp only [requestStep, hdb, hrow] at hstep
      obtain ⟨rfl, rfl⟩ := Prod.mk.inj (Option.some.inj hstep)
      exact ⟨rfl, rfl⟩
  | done answer => cases hstep
  | writeHistory _ _ => exact hafter.elim
  | save _ _ _ => exact hafter.elim
  | create => exact hafter.elim
  | commit _ _ => exact hafter.elim

/-! ### Runs -/

/-- The request has edited the version. -/
def HasEdited (thread : RequestThread Xml) : Prop :=
  ∃ pk, thread.phase = .done (.ok (.edited pk))

/-- The request is answered. -/
def RequestAnswered (thread : RequestThread Xml) : Prop :=
  ∃ answer, thread.phase = .done answer

/-- At most one of the requests has edited the version, and nothing else changes the store. If
their uuids are different, the others end with the conflict. When all requests are answered,
there is one history row more than in `store`. -/
structure EditedOnce (store : FormStore Xml) (s : Pool (EditDb Xml) (RequestThread Xml)) :
    Prop where
  unique : ∀ (i j : Nat) (t u : RequestThread Xml), s.threads[i]? = some t →
    s.threads[j]? = some u → HasEdited t → HasEdited u → i = j
  unchanged : (∀ t ∈ s.threads, ¬ HasEdited t) → s.shared.store = store
  conflict : (s.threads.map fun t => getUuidFromXml t.request.xml).Nodup →
    ∀ t ∈ s.threads, RequestAnswered t → HasEdited t ∨ t.phase = .done (.error .instanceEditConflict)
  history : s.threads ≠ [] → (∀ t ∈ s.threads, RequestAnswered t) →
    ∃ row, s.shared.store.histories = store.histories ++ [row]

/-- A request looks the version up while no request is between its lookup and its commit. -/
def LookupAlone (s : Pool (EditDb Xml) (RequestThread Xml)) (i : Nat) : Prop :=
  ∀ thread, s.threads[i]? = some thread → thread.phase = .lookup →
    ∀ other ∈ s.threads, ¬ Editing other.phase

/-- The two parts of a run: before the edit at most one request is on its way to its commit,
and after it one request has edited and the others have not. -/
inductive EditRun (store : FormStore Xml) (target : Instance Xml)
    (s : Pool (EditDb Xml) (RequestThread Xml)) : Prop
  | before (hstore : s.shared.store = store)
      (hbefore : ∀ t ∈ s.threads, BeforeEdit target t.request t.phase)
      (halone : Exclusive (fun t : RequestThread Xml => Editing t.phase) True s.threads)
  | after (k : Nat) (winner : RequestThread Xml) (v : String)
      (hwinner : s.threads[k]? = some winner)
      (hedited : winner.phase = .done (.ok (.edited target.pk)))
      (hnew : NewEdit store target winner.request v)
      (hstore : s.shared.store = withEdited store target target.uuid v winner.request.xml)
      (hafter : ∀ j t, s.threads[j]? = some t → j ≠ k →
        AfterEdit store target v t.request t.phase)

/-- A request that has not found the instance is one that has to find the conflict. -/
theorem BeforeEdit.afterEdit {store : FormStore Xml} {target : Instance Xml} (v : String)
    {request : SubmissionRequest Xml} {phase : RequestPhase Xml}
    (h : BeforeEdit target request phase) (hnot : ¬ Editing phase) :
    AfterEdit store target v request phase := by
  cases phase with
  | duplicateCheck => trivial
  | historyCheck => trivial
  | lookup => trivial
  | writeHistory _ _ => exact absurd trivial hnot
  | save _ _ _ => exact absurd trivial hnot
  | commit _ _ => exact absurd trivial hnot
  | appliedCheck _ => exact h.elim
  | conflictCheck _ => exact h.elim
  | load _ _ => exact h.elim
  | create => exact h.elim
  | done _ => exact h.elim

/-- A step with the lookup alone keeps the parts of the run. -/
theorem editRun_step {store : FormStore Xml} {target : Instance Xml}
    (hstore : HasVersion store target) {s s' : Pool (EditDb Xml) (RequestThread Xml)} {i : Nat}
    (hrequests : ∀ t ∈ s.threads, ∃ u, NewEdit store target t.request u)
    (hrun : EditRun store target s) (hstep : Pool.Step (RequestStep .reject) s i s')
    (halone : LookupAlone s i) : EditRun store target s' := by
  obtain ⟨thread, thread', hthread, ⟨hstep, hrequest⟩, hthreads⟩ := hstep
  have hmem : thread ∈ s.threads := List.mem_of_getElem? hthread
  obtain ⟨u, hnew⟩ := hrequests thread hmem
  cases hrun with
  | before hdb hbefore hexclusive =>
      rcases beforeEdit_step hstore hnew hdb (hbefore thread hmem) hstep with
        ⟨hdb', hbefore', hediting⟩ | ⟨hediting, hedited, hdb'⟩
      · refine .before hdb' ?_ ?_
        · intro t ht
          rw [hthreads] at ht
          rcases List.mem_or_eq_of_mem_set ht with ht | rfl
          · exact hbefore t ht
          · rw [hrequest]
            exact hbefore'
        · rw [hthreads]
          by_cases hlookup : thread.phase = .lookup
          · -- no other request is editing when the version is looked up
            have hnone := halone thread hthread hlookup
            have hself : ∀ {j t}, (s.threads.set i thread')[j]? = some t → Editing t.phase →
                j = i := by
              intro j t hj ht
              rcases Exclusive.getElem?_set_cases hj with ⟨rfl, -⟩ | ⟨-, hj⟩
              · rfl
              · exact absurd ht (hnone t (List.mem_of_getElem? hj))
            refine ⟨fun j l t t' hj hl ht ht' => ?_, fun _ _ _ => trivial⟩
            rw [hself hj ht, hself hl ht']
          · refine hexclusive.keep hthread (fun h => ?_) id
            exact (hediting h).resolve_right hlookup
      · -- the commit
        have hself : s'.threads[i]? = some thread' := by
          obtain ⟨hi, -⟩ := List.getElem?_eq_some_iff.mp hthread
          rw [hthreads, List.getElem?_set_self hi]
        refine .after i thread' u hself hedited (hrequest ▸ hnew) (hrequest ▸ hdb') ?_
        intro j t hj hne
        rw [hthreads, List.getElem?_set_ne hne.symm] at hj
        refine (hbefore t (List.mem_of_getElem? hj)).afterEdit u fun ht => hne ?_
        exact hexclusive.unique j i t thread hj hthread ht hediting
  | after k winner v hwinner hedited hwinnerNew hdb hafter =>
      by_cases hik : i = k
      · -- the request that has edited is answered
        subst hik
        obtain rfl : thread = winner := Option.some.inj (hthread.symm.trans hwinner)
        rw [hedited] at hstep
        cases hstep
      · obtain ⟨hdb', hafter'⟩ := afterEdit_step hstore hnew hwinnerNew.notCurrent hdb
          (hafter i thread hthread hik) hstep
        refine .after k winner v ?_ hedited hwinnerNew (hdb'.trans hdb) ?_
        · rw [hthreads, List.getElem?_set_ne hik]
          exact hwinner
        · intro j t hj hne
          rw [hthreads] at hj
          rcases Exclusive.getElem?_set_cases hj with ⟨rfl, rfl⟩ | ⟨-, hj⟩
          · rw [hrequest]
            exact hafter'
          · exact hafter j t hj hne

/-- A request that is on its way to the edit is not answered. -/
theorem BeforeEdit.not_requestAnswered {target : Instance Xml} {t : RequestThread Xml}
    (h : BeforeEdit target t.request t.phase) : ¬ RequestAnswered t := by
  rintro ⟨answer, hdone⟩
  rw [hdone] at h
  exact h

/-- A request that is on its way to the conflict has not edited. -/
theorem AfterEdit.not_hasEdited {store : FormStore Xml} {target : Instance Xml} {v : String}
    {t : RequestThread Xml} (h : AfterEdit store target v t.request t.phase) :
    ¬ HasEdited t := by
  rintro ⟨pk, hdone⟩
  rw [hdone] at h
  cases h.1

/-- The parts of a run have the version edited at most once. -/
theorem EditRun.editedOnce {store : FormStore Xml} {target : Instance Xml}
    {s : Pool (EditDb Xml) (RequestThread Xml)} (h : EditRun store target s) :
    EditedOnce store s := by
  cases h with
  | before hdb hbefore _ =>
      have hnot : ∀ t ∈ s.threads, ¬ RequestAnswered t := fun t ht => (hbefore t ht).not_requestAnswered
      constructor
      · rintro i j t u ht - ⟨pk, hdone⟩ -
        exact absurd ⟨_, hdone⟩ (hnot t (List.mem_of_getElem? ht))
      · exact fun _ => hdb
      · exact fun _ t ht hanswered => absurd hanswered (hnot t ht)
      · intro hsome hall
        obtain ⟨t, ht⟩ := List.exists_mem_of_ne_nil _ hsome
        exact absurd (hall t ht) (hnot t ht)
  | after k winner v hwinner hedited hnew hdb hafter =>
      have hother : ∀ j t, s.threads[j]? = some t → HasEdited t → j = k := by
        intro j t hj ht
        by_contra hne
        exact (hafter j t hj hne).not_hasEdited ht
      constructor
      · intro i j t u hi hj ht hu
        rw [hother i t hi ht, hother j u hj hu]
      · exact fun hnone => absurd ⟨_, hedited⟩ (hnone winner (List.mem_of_getElem? hwinner))
      · rintro hnodup t ht ⟨answer, hdone⟩
        obtain ⟨j, hj⟩ := List.mem_iff_getElem?.mp ht
        by_cases hjk : j = k
        · subst hjk
          obtain rfl : t = winner := Option.some.inj (hj.symm.trans hwinner)
          exact Or.inl ⟨_, hedited⟩
        · have hphase := hafter j t hj hjk
          rw [hdone] at hphase ⊢
          cases answer with
          | error error =>
              obtain rfl := hphase
              exact Or.inr rfl
          | ok answer =>
              -- a duplicate has the uuid of the edit
              have hsame : (s.threads.map fun t => getUuidFromXml t.request.xml)[j]? =
                  (s.threads.map fun t => getUuidFromXml t.request.xml)[k]? := by
                rw [List.getElem?_map, List.getElem?_map, hj, hwinner, Option.map_some,
                  Option.map_some, hphase.2, hnew.own]
              obtain ⟨hlt, -⟩ := List.getElem?_eq_some_iff.mp hj
              have hlt' : j < (s.threads.map fun t => getUuidFromXml t.request.xml).length := by
                rwa [List.length_map]
              exact absurd ((List.getElem?_inj hlt' hnodup).mp hsame) hjk
      · intro _ _
        rw [hdb]
        exact ⟨_, rfl⟩

/-- The requests stay the same in a run. -/
theorem map_request_step {resolution : EditConflictResolution}
    {s s' : Pool (EditDb Xml) (RequestThread Xml)} {i : Nat}
    (hstep : Pool.Step (RequestStep resolution) s i s') :
    s'.threads.map (·.request) = s.threads.map (·.request) := by
  obtain ⟨thread, thread', hthread, ⟨-, hrequest⟩, hthreads⟩ := hstep
  rw [hthreads, List.map_set, hrequest]
  refine List.ext_getElem? fun j => ?_
  rw [List.getElem?_set']
  split
  · rename_i hij
    subst hij
    rw [List.getElem?_map, hthread]
    rfl
  · rfl

/-- In every run of new edits of one version whose lookups happen while no request is between
its lookup and its commit, the version is edited once. -/
theorem editedOnce_of_lookupAlone {store : FormStore Xml} {target : Instance Xml}
    (hstore : HasVersion store target) {requests : List (SubmissionRequest Xml)}
    (hrequests : ∀ request ∈ requests, ∃ u, NewEdit store target request u)
    {schedule : List Nat} {s : Pool (EditDb Xml) (RequestThread Xml)}
    (hrun : Run (Guarded (Pool.Step (RequestStep .reject)) fun s i _ => LookupAlone s i)
      (startRequests store requests) schedule s) : EditedOnce store s := by
  let Inv (s : Pool (EditDb Xml) (RequestThread Xml)) : Prop :=
    s.threads.map (·.request) = requests ∧ EditRun store target s
  have hstart : Inv (startRequests store requests) := by
    refine ⟨?_, .before rfl ?_ ?_⟩
    · show (requests.map _).map _ = requests
      rw [List.map_map]
      exact List.map_id requests
    · intro t ht
      obtain ⟨request, -, rfl⟩ := List.mem_map.mp ht
      trivial
    · have hnot : ∀ {j : Nat} {t : RequestThread Xml},
          (startRequests store requests).threads[j]? = some t → ¬ Editing t.phase := by
        intro j t hj ht
        obtain ⟨request, -, rfl⟩ := List.mem_map.mp (List.mem_of_getElem? hj)
        exact ht
      exact ⟨fun j l t t' hj _ ht _ => absurd ht (hnot hj), fun _ _ _ => trivial⟩
  refine (hrun.invariant Inv (fun s i s' _ hstep hs => ?_) hstart).2.editedOnce
  refine ⟨(map_request_step hstep.1).trans hs.1, editRun_step hstore ?_ hs.2 hstep.1 hstep.2⟩
  intro t ht
  exact hrequests t.request (hs.1 ▸ List.mem_map_of_mem ht)

end

/-! ### A race -/

/-- A form with one submission. -/
def versionStore : FormStore MetaXml :=
  { instances := [⟨0, "a", ⟨"uuid:a", none⟩, "uuid:a", none⟩], nextPk := 1 }

/-- An edit of the submission. -/
def editOfVersion (instanceID : String) : SubmissionRequest MetaXml :=
  { xml := ⟨instanceID, some "uuid:a"⟩ }

/-- Alone, the edit is that of `createInstance`. -/
theorem endsWith_editOfVersion :
    EndsWith .reject versionStore (editOfVersion "uuid:b") { store := versionStore }
      .duplicateCheck (createInstance .reject versionStore (editOfVersion "uuid:b")) :=
  endsWith_createInstance (by decide) (by decide) (by rintro h ⟨⟩)

theorem hasVersion_versionStore : HasVersion versionStore ⟨0, "a", ⟨"uuid:a", none⟩, "uuid:a", none⟩
    where
  mem := List.mem_cons_self
  nonempty := by decide
  pk_nodup := by decide
  uuid_nodup := by decide
  filed := by
    rintro h ⟨⟩

theorem newEdit_editOfVersion {instanceID u : String}
    (hown : getUuidFromXml (editOfVersion instanceID).xml = some u) (hempty : u ≠ "")
    (hother : u ≠ "a") :
    NewEdit versionStore ⟨0, "a", ⟨"uuid:a", none⟩, "uuid:a", none⟩ (editOfVersion instanceID) u
    where
  deprecated := rfl
  own := hown
  nonempty := hempty
  notCurrent := by
    rintro ⟨i, hi, huuid⟩
    obtain rfl := List.mem_singleton.mp hi
    exact hother huuid.symm
  notFiled := by
    rintro ⟨h, ⟨⟩, -⟩
  mayEdit := rfl

/-- Two edits of the submission. -/
def racingEdits : List (SubmissionRequest MetaXml) :=
  [editOfVersion "uuid:b", editOfVersion "uuid:c"]

theorem newEdit_racingEdits : ∀ request ∈ racingEdits, ∃ u, NewEdit versionStore
    ⟨0, "a", ⟨"uuid:a", none⟩, "uuid:a", none⟩ request u := by
  intro request hrequest
  rcases List.mem_cons.mp hrequest with rfl | hrequest
  · exact ⟨"b", newEdit_editOfVersion (by decide) (by decide) (by decide)⟩
  · obtain rfl := List.mem_singleton.mp hrequest
    exact ⟨"c", newEdit_editOfVersion (by decide) (by decide) (by decide)⟩

/-- A statement of a request, with the request. -/
def nextStatement (db : EditDb MetaXml) (thread : RequestThread MetaXml) :
    Option (EditDb MetaXml × RequestThread MetaXml) :=
  (requestStep .reject db thread.request thread.phase).map fun next =>
    (next.1, { thread with phase := next.2 })

theorem requestStep_nextStatement (db : EditDb MetaXml) (thread : RequestThread MetaXml)
    (db' : EditDb MetaXml) (thread' : RequestThread MetaXml)
    (h : nextStatement db thread = some (db', thread')) :
    RequestStep .reject db thread db' thread' := by
  obtain ⟨⟨next, phase⟩, hstep, heq⟩ := Option.map_eq_some_iff.mp h
  obtain ⟨rfl, rfl⟩ := Prod.mk.inj heq
  exact ⟨hstep, rfl⟩

instance : DecidablePred fun phase : RequestPhase MetaXml => Editing phase := fun phase =>
  match phase with
  | .writeHistory _ _ => isTrue trivial
  | .save _ _ _ => isTrue trivial
  | .commit _ _ => isTrue trivial
  | .duplicateCheck => isFalse id
  | .historyCheck => isFalse id
  | .lookup => isFalse id
  | .appliedCheck _ => isFalse id
  | .conflictCheck _ => isFalse id
  | .load _ _ => isFalse id
  | .create => isFalse id
  | .done _ => isFalse id

/-- The check for `LookupAlone`. -/
def checkLookup (s : Pool (EditDb MetaXml) (RequestThread MetaXml)) (i : Nat) : Bool :=
  match s.threads[i]? with
  | some ⟨_, .lookup⟩ => decide (∀ other ∈ s.threads, ¬ Editing other.phase)
  | _ => true

theorem lookupAlone_of_check (s : Pool (EditDb MetaXml) (RequestThread MetaXml)) (i : Nat)
    (h : checkLookup s i = true) : LookupAlone s i := by
  rintro ⟨request, phase⟩ hthread rfl
  rw [checkLookup, hthread] at h
  exact of_decide_eq_true h

/-- The first edit is committed before the second request looks the submission up: the edits end
with the edit and the conflict. -/
theorem editedOnce_oneAfterTheOther :
    ∃ s, s.threads.map (·.phase) =
        [.done (.ok (.edited 0)), .done (.error .instanceEditConflict)] ∧
      EditedOnce versionStore s := by
  have hattempt : (Pool.attempt nextStatement checkLookup
      (startRequests versionStore racingEdits) [0, 0, 0, 1, 1, 0, 0, 0, 1, 1, 1, 1]).map
        (fun s => s.threads.map (·.phase)) =
      some [.done (.ok (.edited 0)), .done (.error .instanceEditConflict)] := rfl
  obtain ⟨s, hs, hphases⟩ := Option.map_eq_some_iff.mp hattempt
  have hrun : Run (Guarded (Pool.Step (RequestStep .reject)) fun s i _ => LookupAlone s i)
      (startRequests versionStore racingEdits) _ s :=
    Pool.run_of_attempt requestStep_nextStatement
      (fun s i _ hcheck => lookupAlone_of_check s i hcheck) hs
  exact ⟨s, hphases,
    editedOnce_of_lookupAlone hasVersion_versionStore newEdit_racingEdits hrun⟩

/-- Both edits look the submission up before either is committed: both edit it, and the second
one overwrites the first. -/
theorem not_editedOnce_racing :
    ¬∀ (store : FormStore MetaXml) (target : Instance MetaXml), HasVersion store target →
      ∀ requests : List (SubmissionRequest MetaXml),
      (∀ request ∈ requests, ∃ u, NewEdit store target request u) →
      ∀ (schedule : List Nat) (s : Pool (EditDb MetaXml) (RequestThread MetaXml)),
      Run (Pool.Step (RequestStep .reject)) (startRequests store requests) schedule s →
        EditedOnce store s := by
  intro h
  have hattempt : (Pool.attempt nextStatement (fun _ _ => true)
      (startRequests versionStore racingEdits) [0, 0, 0, 1, 1, 1, 0, 0, 0, 1, 1, 1]).map
        (fun s => s.threads.map (·.phase)) =
      some [.done (.ok (.edited 0)), .done (.ok (.edited 0))] := rfl
  obtain ⟨s, hs, hphases⟩ := Option.map_eq_some_iff.mp hattempt
  have hrun : Run (Guarded (Pool.Step (RequestStep .reject)) fun _ _ _ => True)
      (startRequests versionStore racingEdits) _ s :=
    Pool.run_of_attempt requestStep_nextStatement (fun _ _ _ _ => trivial) hs
  have honce := h versionStore _ hasVersion_versionStore racingEdits newEdit_racingEdits _ s
    (hrun.mono fun _ _ _ h => h.1)
  obtain ⟨first, rest, hthreads, hfirst, hrest⟩ := List.map_eq_cons_iff.mp hphases
  obtain ⟨second, _, rfl, hsecond, -⟩ := List.map_eq_cons_iff.mp hrest
  have hsame := honce.unique 0 1 first second (by rw [hthreads]; rfl) (by rw [hthreads]; rfl)
    ⟨0, hfirst⟩ ⟨0, hsecond⟩
  cases hsame

end Onadata.Proofs
