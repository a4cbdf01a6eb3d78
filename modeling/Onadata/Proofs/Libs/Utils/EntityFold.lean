import Mathlib.Data.List.Basic
import Mathlib.Logic.Function.Iterate
import Onadata.Lib.Run
import Onadata.Libs.Utils.EntitiesUtils
import Onadata.Proofs.Libs.Utils.CreateInstance

/-!
# `Onadata.Proofs.Libs.Utils.EntityFold`: entities as the fold of the submissions

Each save of a submission applies its entity nodes again. A node that creates an entity does
nothing the second time. A node that updates one patches it and writes a history row each
time.

* `applyEntityNode_cases`: what one entity node does.
* `iterate_eq_self_iff`, `iterate_eq_once_iff`: when the repeated saves of a submission
  apply it once.
* `appliedOnce_iff`: in a run the entities and their histories are the fold of the received
  submissions exactly when no event saves a submission that updates an entity.
-/

set_option autoImplicit false

namespace Onadata.Proofs

open Onadata.Lib (Run Guarded)

section
variable {Xml : Type} [EntityXml Xml]

/-! ### One entity node -/

/-- The entity node creates the entity with this key, unless there is one. -/
def Creates (env : EntityEnv) (node : EntityNode) (key : Nat × String) : Prop :=
  node.create ∈ mutationSuccessChecks ∧
    ∃ form, env.formOf node = some form ∧ (form.entityList, node.id) = key

/-- The entity node updates the entity with this key, if there is one. -/
def Updates (env : EntityEnv) (node : EntityNode) (key : Nat × String) : Prop :=
  node.update ∈ mutationSuccessChecks ∧
    ∃ form, env.formOf node = some form ∧ (form.entityList, node.id) = key

/-- There is an entity with this key. -/
def HasKey (store : EntityStore) (key : Nat × String) : Prop :=
  ∃ entity ∈ store.entities, entity.key = key

/-- An entity node creates an entity, updates one, or does nothing. -/
theorem applyEntityNode_cases (env : EntityEnv) (saved : SavedInstance Xml)
    (store : EntityStore) (node : EntityNode) :
    (applyEntityNode env saved store node = store ∧
      (∀ key, Creates env node key → HasKey store key) ∧
      ∀ key, Updates env node key → ¬ HasKey store key) ∨
    (∃ form, Creates env node (form.entityList, node.id) ∧
      ¬ HasKey store (form.entityList, node.id) ∧ env.formOf node = some form ∧
      applyEntityNode env saved store node = createEntityFromInstance store saved form node) ∨
    ∃ form entity, Updates env node (form.entityList, node.id) ∧
      HasKey store (form.entityList, node.id) ∧ env.formOf node = some form ∧
      applyEntityNode env saved store node =
        updateEntityFromInstance store entity saved form node := by
  cases hform : env.formOf node with
  | none =>
      refine Or.inl ⟨by simp only [applyEntityNode, hform], ?_, ?_⟩
      · rintro key ⟨-, form, h, -⟩
        rw [hform] at h
        exact absurd h (by simp)
      · rintro key ⟨-, form, h, -⟩
        rw [hform] at h
        exact absurd h (by simp)
  | some form =>
      have hkey : ∀ {key form'}, env.formOf node = some form' →
          (form'.entityList, node.id) = key → key = (form.entityList, node.id) := by
        intro key form' h heq
        rw [hform] at h
        rw [← heq, Option.some.inj h]
      cases hfind : store.entities.find? fun e => e.key = (form.entityList, node.id) with
      | none =>
          have hnot : ¬ HasKey store (form.entityList, node.id) := by
            rintro ⟨entity, hmem, heq⟩
            exact absurd heq (by simpa using List.find?_eq_none.mp hfind entity hmem)
          by_cases hcreate : node.create ∈ mutationSuccessChecks
          · refine Or.inr (Or.inl ⟨form, ⟨hcreate, form, hform, rfl⟩, hnot, rfl, ?_⟩)
            simp only [applyEntityNode, hform, hfind, if_pos hcreate]
          · refine Or.inl ⟨?_, fun key h => absurd h.1 hcreate, ?_⟩
            · simp only [applyEntityNode, hform, hfind, if_neg hcreate]
            · rintro key ⟨-, form', h, heq⟩
              rw [hkey h heq]
              exact hnot
      | some entity =>
          have hhas : HasKey store (form.entityList, node.id) :=
            ⟨entity, List.mem_of_find?_eq_some hfind, by simpa using List.find?_some hfind⟩
          by_cases hupdate : node.update ∈ mutationSuccessChecks
          · refine Or.inr (Or.inr ⟨form, entity, ⟨hupdate, form, hform, rfl⟩, hhas, rfl, ?_⟩)
            simp only [applyEntityNode, hform, hfind, if_pos hupdate]
          · refine Or.inl ⟨?_, ?_, fun key h => absurd h.1 hupdate⟩
            · simp only [applyEntityNode, hform, hfind, if_neg hupdate]
            · rintro key ⟨-, form', h, heq⟩
              rw [hkey h heq]
              exact hhas

/-- The keys after an update are the keys before it. -/
theorem hasKey_updateEntityFromInstance (store : EntityStore) (entity : Entity)
    (saved : SavedInstance Xml) (form : RegistrationForm) (node : EntityNode)
    (key : Nat × String) :
    HasKey (updateEntityFromInstance store entity saved form node) key ↔ HasKey store key := by
  have hkey : ∀ (e : Entity) json,
      (if e.key = entity.key then { e with json := json } else e).key = e.key := by
    intro e json
    split
    · rfl
    · rfl
  simp only [HasKey, updateEntityFromInstance, List.mem_map]
  constructor
  · rintro ⟨e, ⟨before, hmem, rfl⟩, rfl⟩
    exact ⟨before, hmem, (hkey before _).symm⟩
  · rintro ⟨before, hmem, rfl⟩
    exact ⟨_, ⟨before, hmem, rfl⟩, hkey before _⟩

/-- The keys after an entity node: those before it, and the one that it creates. -/
theorem hasKey_applyEntityNode (env : EntityEnv) (saved : SavedInstance Xml)
    (store : EntityStore) (node : EntityNode) (key : Nat × String) :
    HasKey (applyEntityNode env saved store node) key ↔
      HasKey store key ∨ Creates env node key := by
  rcases applyEntityNode_cases env saved store node with
    ⟨heq, hcreates, -⟩ | ⟨form, hcreates, -, hform, heq⟩ | ⟨form, entity, -, hhas, hform, heq⟩
  · rw [heq]
    exact (or_iff_left_of_imp (hcreates key)).symm
  · have hiff : Creates env node key ↔ (form.entityList, node.id) = key := by
      refine ⟨?_, fun h => h ▸ hcreates⟩
      rintro ⟨-, form', h, rfl⟩
      rw [Option.some.inj (hform.symm.trans h)]
    rw [heq, hiff]
    simp only [HasKey, createEntityFromInstance, List.mem_append, List.mem_singleton]
    constructor
    · rintro ⟨e, he | rfl, rfl⟩
      · exact Or.inl ⟨e, he, rfl⟩
      · exact Or.inr rfl
    · rintro (⟨e, he, rfl⟩ | rfl)
      · exact ⟨e, Or.inl he, rfl⟩
      · exact ⟨_, Or.inr rfl, rfl⟩
  · rw [heq, hasKey_updateEntityFromInstance]
    refine (or_iff_left_of_imp ?_).symm
    rintro ⟨-, form', h, rfl⟩
    exact Option.some.inj (hform.symm.trans h) ▸ hhas

/-- An entity node never removes a history row. -/
theorem histories_applyEntityNode (env : EntityEnv) (saved : SavedInstance Xml)
    (store : EntityStore) (node : EntityNode) :
    store.histories.length ≤ (applyEntityNode env saved store node).histories.length := by
  rcases applyEntityNode_cases env saved store node with
    ⟨heq, -, -⟩ | ⟨form, -, -, -, heq⟩ | ⟨form, entity, -, -, -, heq⟩
  · exact Nat.le_of_eq (congrArg (fun s => s.histories.length) heq.symm)
  · simp [heq, createEntityFromInstance]
  · simp [heq, updateEntityFromInstance]

/-- An entity node that updates an entity writes a history row. -/
theorem histories_applyEntityNode_of_updates (env : EntityEnv) (saved : SavedInstance Xml)
    (store : EntityStore) (node : EntityNode) {key : Nat × String}
    (hupdates : Updates env node key) (hkey : HasKey store key) :
    store.histories.length < (applyEntityNode env saved store node).histories.length := by
  rcases applyEntityNode_cases env saved store node with
    ⟨-, -, hnot⟩ | ⟨form, -, -, -, heq⟩ | ⟨form, entity, -, -, -, heq⟩
  · exact absurd hkey (hnot key hupdates)
  · simp [heq, createEntityFromInstance]
  · simp [heq, updateEntityFromInstance]

/-! ### The entity nodes of a submission -/

/-- The keys after a list of entity nodes. -/
theorem hasKey_foldl (env : EntityEnv) (saved : SavedInstance Xml) (nodes : List EntityNode)
    (store : EntityStore) (key : Nat × String) :
    HasKey (nodes.foldl (applyEntityNode env saved) store) key ↔
      HasKey store key ∨ ∃ node ∈ nodes, Creates env node key := by
  induction nodes generalizing store with
  | nil => simp
  | cons node nodes ih =>
      rw [List.foldl_cons, ih, hasKey_applyEntityNode, or_assoc, List.exists_mem_cons_iff]

theorem histories_foldl (env : EntityEnv) (saved : SavedInstance Xml)
    (nodes : List EntityNode) (store : EntityStore) :
    store.histories.length ≤
      (nodes.foldl (applyEntityNode env saved) store).histories.length := by
  induction nodes generalizing store with
  | nil => exact Nat.le_refl _
  | cons node nodes ih =>
      exact Nat.le_trans (histories_applyEntityNode env saved store node) (ih _)

/-- Entity nodes whose entities exist and that update none do nothing. -/
theorem foldl_of_quiet (env : EntityEnv) (saved : SavedInstance Xml)
    (nodes : List EntityNode) (store : EntityStore)
    (hcreates : ∀ node ∈ nodes, ∀ key, Creates env node key → HasKey store key)
    (hupdates : ∀ node ∈ nodes, ∀ key, Updates env node key → ¬ HasKey store key) :
    nodes.foldl (applyEntityNode env saved) store = store := by
  induction nodes with
  | nil => rfl
  | cons node nodes ih =>
      rw [List.forall_mem_cons] at hcreates hupdates
      have hnode : applyEntityNode env saved store node = store := by
        rcases applyEntityNode_cases env saved store node with
          ⟨heq, -, -⟩ | ⟨form, hc, hnot, -, -⟩ | ⟨form, entity, hu, hhas, -, -⟩
        · exact heq
        · exact absurd (hcreates.1 _ hc) hnot
        · exact absurd hhas (hupdates.1 _ hu)
      rw [List.foldl_cons, hnode]
      exact ih hcreates.2 hupdates.2

/-- An entity node that updates an entity writes a history row, wherever it stands. -/
theorem histories_foldl_of_updates (env : EntityEnv) (saved : SavedInstance Xml)
    (nodes : List EntityNode) (store : EntityStore) {node : EntityNode} (hmem : node ∈ nodes)
    {key : Nat × String} (hupdates : Updates env node key) (hkey : HasKey store key) :
    store.histories.length <
      (nodes.foldl (applyEntityNode env saved) store).histories.length := by
  obtain ⟨before, after, rfl⟩ := List.append_of_mem hmem
  rw [List.foldl_append, List.foldl_cons]
  have hkey' : HasKey (before.foldl (applyEntityNode env saved) store) key :=
    (hasKey_foldl env saved before store key).mpr (Or.inl hkey)
  calc store.histories.length
      ≤ (before.foldl (applyEntityNode env saved) store).histories.length :=
        histories_foldl env saved before store
    _ < _ := histories_applyEntityNode_of_updates env saved _ node hupdates hkey'
    _ ≤ _ := histories_foldl env saved after _

/-! ### The saves of a submission -/

/-- Every entity that the submission creates is there. -/
def Settled (env : EntityEnv) (store : EntityStore) (xml : Xml) : Prop :=
  ∀ node ∈ EntityXml.entityNodes xml, ∀ key, Creates env node key → HasKey store key

/-- The submission updates an entity: one that is there, or one that the submission itself
creates. -/
def UpdatesEntity (env : EntityEnv) (store : EntityStore) (xml : Xml) : Prop :=
  ∃ node ∈ EntityXml.entityNodes xml, ∃ key, Updates env node key ∧
    (HasKey store key ∨ ∃ other ∈ EntityXml.entityNodes xml, Creates env other key)

/-- The early return changes nothing: without forms or nodes there is nothing to apply. -/
theorem createOrUpdateEntityFromInstance_eq_foldl (env : EntityEnv)
    (saved : SavedInstance Xml) (store : EntityStore) :
    createOrUpdateEntityFromInstance env saved store =
      (EntityXml.entityNodes saved.xml).foldl (applyEntityNode env saved) store := by
  rw [createOrUpdateEntityFromInstance]
  split
  · rename_i hempty
    refine (foldl_of_quiet env saved _ store ?_ ?_).symm
    · rintro node hnode key ⟨-, form, hform, -⟩
      rcases hempty with hforms | hnodes
      · simp [EntityEnv.formOf, hforms] at hform
      · simp [hnodes] at hnode
    · rintro node hnode key ⟨-, form, hform, -⟩
      rcases hempty with hforms | hnodes
      · simp [EntityEnv.formOf, hforms] at hform
      · simp [hnodes] at hnode
  · rfl

/-- Keys are never removed. -/
theorem HasKey.apply (env : EntityEnv) (saved : SavedInstance Xml) {store : EntityStore}
    {key : Nat × String} (h : HasKey store key) :
    HasKey (createOrUpdateEntityFromInstance env saved store) key := by
  rw [createOrUpdateEntityFromInstance_eq_foldl, hasKey_foldl]
  exact Or.inl h

/-- A submission that was applied is settled. -/
theorem settled_apply (env : EntityEnv) (saved : SavedInstance Xml) (store : EntityStore) :
    Settled env (createOrUpdateEntityFromInstance env saved store) saved.xml := by
  intro node hnode key hcreates
  rw [createOrUpdateEntityFromInstance_eq_foldl, hasKey_foldl]
  exact Or.inr ⟨node, hnode, hcreates⟩

/-- Applying a submission never removes a history row. -/
theorem histories_apply (env : EntityEnv) (saved : SavedInstance Xml) (store : EntityStore) :
    store.histories.length ≤
      (createOrUpdateEntityFromInstance env saved store).histories.length := by
  rw [createOrUpdateEntityFromInstance_eq_foldl]
  exact histories_foldl env saved _ store

/-- A settled submission that updates no entity does nothing. -/
theorem apply_of_settled (env : EntityEnv) (saved : SavedInstance Xml) (store : EntityStore)
    (hsettled : Settled env store saved.xml) (hupdates : ¬ UpdatesEntity env store saved.xml) :
    createOrUpdateEntityFromInstance env saved store = store := by
  rw [createOrUpdateEntityFromInstance_eq_foldl]
  refine foldl_of_quiet env saved _ store hsettled ?_
  exact fun node hnode key h hkey => hupdates ⟨node, hnode, key, h, Or.inl hkey⟩

/-- A settled submission that updates an entity writes a history row. -/
theorem histories_apply_of_updatesEntity (env : EntityEnv) (saved : SavedInstance Xml)
    (store : EntityStore) (hsettled : Settled env store saved.xml)
    (hupdates : UpdatesEntity env store saved.xml) :
    store.histories.length <
      (createOrUpdateEntityFromInstance env saved store).histories.length := by
  obtain ⟨node, hnode, key, h, hkey⟩ := hupdates
  have hkey : HasKey store key := by
    rcases hkey with hkey | ⟨other, hother, hcreates⟩
    · exact hkey
    · exact hsettled other hother key hcreates
  rw [createOrUpdateEntityFromInstance_eq_foldl]
  exact histories_foldl_of_updates env saved _ store hnode h hkey

/-- Whether a submission updates an entity does not change when it is applied. -/
theorem updatesEntity_apply (env : EntityEnv) (saved : SavedInstance Xml)
    (store : EntityStore) :
    UpdatesEntity env (createOrUpdateEntityFromInstance env saved store) saved.xml ↔
      UpdatesEntity env store saved.xml := by
  refine exists_congr fun node => and_congr_right fun _ => exists_congr fun key =>
    and_congr_right fun _ => ?_
  rw [createOrUpdateEntityFromInstance_eq_foldl, hasKey_foldl, or_assoc, or_self]

/-- Saving a settled submission again changes nothing exactly when it updates no entity. -/
theorem iterate_eq_self_iff (env : EntityEnv) (saved : SavedInstance Xml)
    (store : EntityStore) (hsettled : Settled env store saved.xml) (n : Nat) (hn : n ≠ 0) :
    (createOrUpdateEntityFromInstance env saved)^[n] store = store ↔
      ¬ UpdatesEntity env store saved.xml := by
  constructor
  · intro heq hupdates
    obtain ⟨n, rfl⟩ := Nat.exists_eq_succ_of_ne_zero hn
    have hmono : ∀ m (store : EntityStore), store.histories.length ≤
        ((createOrUpdateEntityFromInstance env saved)^[m] store).histories.length := by
      intro m
      induction m with
      | zero => exact fun store => Nat.le_refl _
      | succ m ih => exact fun store => Nat.le_trans (histories_apply env saved store) (ih _)
    have hgrows := histories_apply_of_updatesEntity env saved store hsettled hupdates
    have hrest := hmono n (createOrUpdateEntityFromInstance env saved store)
    rw [← Function.iterate_succ_apply, heq] at hrest
    omega
  · exact fun hupdates =>
      Function.iterate_fixed (apply_of_settled env saved store hsettled hupdates) n

/-- Saving a submission more than once is the same as saving it once exactly when it updates
no entity. -/
theorem iterate_eq_once_iff (env : EntityEnv) (saved : SavedInstance Xml)
    (store : EntityStore) (n : Nat) (hn : 2 ≤ n) :
    (createOrUpdateEntityFromInstance env saved)^[n] store =
        createOrUpdateEntityFromInstance env saved store ↔
      ¬ UpdatesEntity env store saved.xml := by
  obtain ⟨n, rfl⟩ := Nat.exists_eq_add_of_le hn
  rw [← updatesEntity_apply env saved store, show 2 + n = (n + 1).succ by omega,
    Function.iterate_succ_apply]
  exact iterate_eq_self_iff env saved _ (settled_apply env saved store) (n + 1) (by omega)

/-- Without a review, every save applies the submission. -/
theorem foldl_createOrUpdateEntity (env : EntityEnv) (hreview : env.isReviewEnabled = false)
    (saved : SavedInstance Xml) (store : EntityStore) (saves : List Bool) :
    saves.foldl (createOrUpdateEntity env saved) store =
      (createOrUpdateEntityFromInstance env saved)^[saves.length] store := by
  have hsave : createOrUpdateEntity env saved =
      fun store (_ : Bool) => createOrUpdateEntityFromInstance env saved store := by
    funext store created
    simp [createOrUpdateEntity, hreview]
  rw [hsave, List.foldl_const]

/-! ### Runs -/

/-- A step of a run. -/
def EntityStep (resolution : EditConflictResolution) (env : EntityEnv) (run : EntityRun Xml)
    (event : SubmissionEvent Xml) (run' : EntityRun Xml) : Prop :=
  run' = run.step resolution env event

/-- The entities and their histories are the fold of the received submissions, each applied
once. -/
def AppliedOnce (env : EntityEnv) (initial : EntityStore) (run : EntityRun Xml) : Prop :=
  run.entities = run.received.foldl
    (fun store saved => createOrUpdateEntityFromInstance env saved store) initial

/-- The event saves a submission that updates an entity. -/
def SavesUpdate (resolution : EditConflictResolution) (env : EntityEnv) (run : EntityRun Xml)
    (event : SubmissionEvent Xml) : Prop :=
  ∃ saved saves received,
    (savesOfEvent resolution run.submissions event).2 = some (saved, saves, received) ∧
      UpdatesEntity env run.entities saved.xml

/-- The invariant: every submission was applied once, and those that are stored are
settled. -/
structure Folded (env : EntityEnv) (initial : EntityStore) (run : EntityRun Xml) : Prop where
  appliedOnce : AppliedOnce env initial run
  settled : ∀ i ∈ run.submissions.instances, Settled env run.entities i.xml

/-- The submission that a duplicate saves is a stored one. -/
theorem savedInstance_of_not_received {store : FormStore Xml}
    {request : SubmissionRequest Xml} {result : SubmissionResult}
    {saved : SavedInstance Xml} (hresult : result.isReceived = false)
    (h : savedInstance store request result = some saved) :
    ∃ i ∈ store.instances, saved = ⟨i.pk, i.xml⟩ := by
  have hbyPk : ∀ pk, (store.instanceByPk pk).map
      (fun i => (⟨i.pk, i.xml⟩ : SavedInstance Xml)) = some saved →
      ∃ i ∈ store.instances, saved = ⟨i.pk, i.xml⟩ := by
    intro pk hmap
    obtain ⟨i, hi, rfl⟩ := Option.map_eq_some_iff.mp hmap
    exact ⟨i, List.mem_of_find?_eq_some hi, rfl⟩
  cases result with
  | created pk => exact absurd hresult (by simp [SubmissionResult.isReceived])
  | edited pk => exact absurd hresult (by simp [SubmissionResult.isReceived])
  | alreadyApplied pk => exact hbyPk pk h
  | duplicate =>
      simp only [savedInstance] at h
      split at h
      · rename_i i hi
        obtain ⟨uuid, -, hi⟩ := Option.bind_eq_some_iff.mp hi
        exact ⟨i, List.mem_of_find?_eq_some hi, (Option.some.inj h).symm⟩
      · obtain ⟨history, -, h⟩ := Option.bind_eq_some_iff.mp h
        exact hbyPk _ h

/-- What an event saves: nothing, a stored submission, or one that it receives. -/
theorem savesOfEvent_cases (resolution : EditConflictResolution) (store : FormStore Xml)
    (event : SubmissionEvent Xml) :
    savesOfEvent resolution store event = (store, none) ∨
    (∃ i ∈ store.instances, ∃ saves : List Bool, saves.length ≠ 0 ∧
      savesOfEvent resolution store event = (store, some (⟨i.pk, i.xml⟩, saves, false))) ∨
    ∃ store' saved, ∃ saves : List Bool, 2 ≤ saves.length ∧
      savesOfEvent resolution store event = (store', some (saved, saves, true)) ∧
      ∀ i ∈ store'.instances, i ∈ store.instances ∨ i.xml = saved.xml := by
  cases event with
  | save pk =>
      cases hfind : store.instanceByPk pk with
      | none => exact Or.inl (by simp [savesOfEvent, hfind])
      | some i =>
          refine Or.inr (Or.inl ⟨i, List.mem_of_find?_eq_some hfind, [false], by simp, ?_⟩)
          simp [savesOfEvent, hfind]
  | submit request overridesDate =>
      cases hcreate : createInstance resolution store request with
      | error error => exact Or.inl (by simp [savesOfEvent, hcreate])
      | ok accepted =>
          obtain ⟨store', result⟩ := accepted
          have hevent : savesOfEvent resolution store (.submit request overridesDate) =
              (store', (savedInstance store request result).map fun saved =>
                (saved, savesOf result overridesDate, result.isReceived)) := by
            simp only [savesOfEvent, hcreate]
          rcases createInstance_ok_cases hcreate with
            ⟨rfl, hresult⟩ | ⟨rfl, rfl⟩ | ⟨edited, hmem, oldUuid, rfl, rfl⟩
          · -- A duplicate saves the instance that was there.
            have hreceived : result.isReceived = false := by
              rcases hresult with rfl | ⟨pk, rfl⟩
              · rfl
              · rfl
            have hsaves : (savesOf result overridesDate).length ≠ 0 := by
              rcases hresult with rfl | ⟨pk, rfl⟩
              · simp [savesOf]
              · simp [savesOf]
            rw [hevent, hreceived]
            cases hsaved : savedInstance store' request result with
            | none => exact Or.inl rfl
            | some saved =>
                obtain ⟨i, hi, rfl⟩ := savedInstance_of_not_received hreceived hsaved
                exact Or.inr (Or.inl ⟨i, hi, _, hsaves, rfl⟩)
          · refine Or.inr (Or.inr ⟨_, _, _, ?_, hevent, ?_⟩)
            · simp [savesOf]
            · intro i hi
              simp only [withCreated, List.mem_append, List.mem_singleton] at hi
              rcases hi with hi | rfl
              · exact Or.inl hi
              · exact Or.inr rfl
          · refine Or.inr (Or.inr ⟨_, _, _, ?_, hevent, ?_⟩)
            · simp [savesOf]
            · intro i hi
              simp only [withEdited, List.mem_map] at hi
              obtain ⟨before, hbefore, rfl⟩ := hi
              split
              · exact Or.inr rfl
              · exact Or.inl hbefore

/-- In a folded state, an event leaves the entities the fold of the received submissions
exactly when it saves no submission that updates an entity. -/
theorem appliedOnce_step_iff (resolution : EditConflictResolution) (env : EntityEnv)
    (hreview : env.isReviewEnabled = false) (initial : EntityStore)
    {run : EntityRun Xml} (hrun : Folded env initial run) (event : SubmissionEvent Xml) :
    AppliedOnce env initial (run.step resolution env event) ↔
      ¬ SavesUpdate resolution env run event := by
  have hbefore : run.received.foldl
      (fun store saved => createOrUpdateEntityFromInstance env saved store) initial =
        run.entities := hrun.appliedOnce.symm
  rcases savesOfEvent_cases resolution run.submissions event with
    hevent | ⟨i, hi, saves, hlength, hevent⟩ | ⟨store', saved, saves, hlength, hevent, -⟩
  · simp [EntityRun.step, SavesUpdate, AppliedOnce, hevent, hbefore]
  · have hupdate : SavesUpdate resolution env run event ↔
        UpdatesEntity env run.entities i.xml := by
      simp [SavesUpdate, hevent]
    rw [hupdate, ← iterate_eq_self_iff env ⟨i.pk, i.xml⟩ run.entities
      (hrun.settled i hi) saves.length hlength]
    simp only [EntityRun.step, AppliedOnce, hevent, hbefore,
      foldl_createOrUpdateEntity env hreview, Bool.false_eq_true, if_false]
  · have hupdate : SavesUpdate resolution env run event ↔
        UpdatesEntity env run.entities saved.xml := by
      simp [SavesUpdate, hevent]
    rw [hupdate, ← iterate_eq_once_iff env saved run.entities saves.length hlength]
    simp only [EntityRun.step, AppliedOnce, hevent, if_true, List.foldl_append, hbefore,
      foldl_createOrUpdateEntity env hreview, List.foldl_cons, List.foldl_nil]

/-- An event that saves no submission that updates an entity keeps the invariant. -/
theorem folded_step (resolution : EditConflictResolution) (env : EntityEnv)
    (hreview : env.isReviewEnabled = false) (initial : EntityStore)
    {run : EntityRun Xml} (hrun : Folded env initial run) (event : SubmissionEvent Xml)
    (hupdate : ¬ SavesUpdate resolution env run event) :
    Folded env initial (run.step resolution env event) := by
  refine ⟨(appliedOnce_step_iff resolution env hreview initial hrun event).mpr hupdate, ?_⟩
  have hiterate : ∀ (saved : SavedInstance Xml) (n : Nat) {xml : Xml} {store : EntityStore},
      Settled env store xml →
        Settled env ((createOrUpdateEntityFromInstance env saved)^[n] store) xml := by
    intro saved n xml store hsettled
    induction n generalizing store with
    | zero => exact hsettled
    | succ n ih =>
        exact ih fun node hnode key hcreates => (hsettled node hnode key hcreates).apply env saved
  rcases savesOfEvent_cases resolution run.submissions event with
    hevent | ⟨i, hi, saves, hlength, hevent⟩ | ⟨store', saved, saves, hlength, hevent, hrows⟩
  · simp only [EntityRun.step, hevent]
    exact hrun.settled
  · simp only [EntityRun.step, hevent, foldl_createOrUpdateEntity env hreview]
    exact fun other hother => hiterate _ _ (hrun.settled other hother)
  · simp only [EntityRun.step, hevent, foldl_createOrUpdateEntity env hreview]
    intro other hother
    rcases hrows other hother with hold | hxml
    · exact hiterate _ _ (hrun.settled other hold)
    · -- The received submission was applied at least once.
      obtain ⟨n, hn⟩ := Nat.exists_eq_add_of_le hlength
      rw [hxml, hn, show 2 + n = (n + 1).succ by omega, Function.iterate_succ_apply]
      exact hiterate _ _ (settled_apply env saved run.entities)

/-- In a run from the empty form, the entities and their histories are at each step the fold
of the received submissions, each applied once, exactly when no event of the run saves a
submission that updates an entity. -/
theorem appliedOnce_iff (resolution : EditConflictResolution) (env : EntityEnv)
    (hreview : env.isReviewEnabled = false) (initial : EntityStore)
    (events : List (SubmissionEvent Xml)) (run : EntityRun Xml) :
    Run (Guarded (EntityStep resolution env) fun _ _ run' => AppliedOnce env initial run')
        ⟨{}, initial, []⟩ events run ↔
      Run (Guarded (EntityStep resolution env) fun run event _ =>
        ¬ SavesUpdate resolution env run event) ⟨{}, initial, []⟩ events run := by
  refine Run.guarded_congr (Folded env initial) ⟨rfl, by simp⟩ ?_ ?_
  · rintro run event run' - rfl hrun
    exact appliedOnce_step_iff resolution env hreview initial hrun event
  · rintro run event run' - rfl hupdate hrun
    exact folded_step resolution env hreview initial hrun event hupdate

end

/-! ### Updates of one entity -/

/-- A submission with its meta section and its entity nodes. -/
structure EntityMetaXml extends MetaXml where
  nodes : List EntityNode

instance : EntityXml EntityMetaXml where
  metaText xml := SubmissionXml.metaText xml.toMetaXml
  rootInstanceID xml := SubmissionXml.rootInstanceID xml.toMetaXml
  checksum xml := SubmissionXml.checksum xml.toMetaXml
  entityNodes := EntityMetaXml.nodes
  version _ := "1"

/-- A form that registers trees with their species. -/
def treesEnv : EntityEnv where
  registrationForms := [⟨0, "trees", fun _ => [("species", "tree/species")]⟩]

/-- The submission that registers a tree. -/
def treeCreated : EntityMetaXml :=
  ⟨⟨"uuid:a", none⟩, [⟨"t1", "trees", "1", "", [("tree/species", .str "fir")], none⟩]⟩

/-- A submission that corrects the species of the tree. -/
def treeUpdated (uuid species : String) : EntityMetaXml :=
  ⟨⟨uuid, none⟩, [⟨"t1", "trees", "", "1", [("tree/species", .str species)], none⟩]⟩

/-- A tree is registered, its species is corrected twice, and the first correction is saved
again. -/
def treeEvents : List (SubmissionEvent EntityMetaXml) :=
  [.submit ⟨treeCreated, true, ""⟩ false,
    .submit ⟨treeUpdated "uuid:b" "oak", true, ""⟩ false,
    .submit ⟨treeUpdated "uuid:c" "pine", true, ""⟩ false,
    .save 1]

/-- The save brings the first correction back, and there are eight history rows for three
submissions. -/
theorem not_appliedOnce_treeEvents :
    ∃ run : EntityRun EntityMetaXml, Run (EntityStep .reject treesEnv) {} treeEvents run ∧
      run.received.map (·.xml) =
        [treeCreated, treeUpdated "uuid:b" "oak", treeUpdated "uuid:c" "pine"] ∧
      run.entities.entities.map (·.json) = [[("species", .str "oak")]] ∧
      run.entities.histories.length = 8 ∧ ¬ AppliedOnce treesEnv {} run := by
  refine ⟨_, .cons rfl (.cons rfl (.cons rfl (.cons rfl (.nil _)))), rfl, rfl, rfl, ?_⟩
  intro happlied
  exact absurd (congrArg (fun store => store.histories.length) happlied) (by decide)

/-- A tree that is registered and saved again is registered once. -/
theorem appliedOnce_treeCreated :
    ∃ run : EntityRun EntityMetaXml,
      Run (Guarded (EntityStep .reject treesEnv) fun _ _ run' => AppliedOnce treesEnv {} run') {}
        [.submit ⟨treeCreated, true, ""⟩ false, .save 0] run ∧
        run.entities.histories.length = 1 := by
  refine ⟨_, (appliedOnce_iff .reject treesEnv rfl {} _ _).mpr
    (.cons ⟨rfl, ?_⟩ (.cons ⟨rfl, ?_⟩ (.nil _))), rfl⟩
  · rintro ⟨saved, saves, received, hsaved, node, hnode, key, ⟨hupdate, -⟩, -⟩
    obtain rfl : (⟨0, treeCreated⟩ : SavedInstance EntityMetaXml) = saved :=
      congrArg Prod.fst (Option.some.inj hsaved)
    obtain rfl := List.mem_singleton.mp hnode
    exact absurd hupdate (by decide)
  · rintro ⟨saved, saves, received, hsaved, node, hnode, key, ⟨hupdate, -⟩, -⟩
    obtain rfl : (⟨0, treeCreated⟩ : SavedInstance EntityMetaXml) = saved :=
      congrArg Prod.fst (Option.some.inj hsaved)
    obtain rfl := List.mem_singleton.mp hnode
    exact absurd hupdate (by decide)

end Onadata.Proofs
