import Onadata.Lib.ResourceLedger
import Onadata.Libs.Kms.KeyService
import Onadata.Proofs.Libs.Kms.RotationFrame

/-!
# `Onadata.Proofs.Libs.Kms.KeyCustody`: the keys of the service that no row is for

The rows and the service are a `Ledger`: the rows are the records of the keys. `KeyOutcome` states
what `create_key` and `rotate_key` leave, with the rows that they would commit, and
`keyStep_change` the change of the ledger. `keys_held_iff` is about runs: an enabled key is without
an open row in the end exactly when an operation has lost one, and no later operation disables it.
-/

set_option autoImplicit false

namespace Onadata.Proofs

open Onadata.Lib Onadata.Lib.DbAction Onadata.KeyService

section
variable {Xls Survey : Type}

/-! ### The ledger -/

/-- The identifier of each row, and whether the key is disabled. -/
def keyRecords (keys : Table KMSKey) (pk : Nat) : Option (String × Bool) :=
  (keys.get? pk).map fun key => (key.keyId, key.disabledAt.isSome)

/-- The rows as the records of the keys of the service. -/
def ledger (s : KeySession Xls) : Ledger Nat String where
  records := keyRecords s.db.kmsKeys
  resources := Dict.get? s.memory

theorem keyRecords_create (keys : Table KMSKey) (key : KMSKey) :
    keyRecords (keys.create key) = Function.update (keyRecords keys) keys.nextPk
      (some (key.keyId, key.disabledAt.isSome)) := by
  funext pk
  unfold keyRecords
  rw [Table.get?_create, Function.update_apply]
  split <;> rfl

theorem keyRecords_save {keys : Table KMSKey} {pk : Nat} {old : KMSKey}
    (hold : keys.get? pk = some old) (key : KMSKey) :
    keyRecords (keys.save pk key) =
      Function.update (keyRecords keys) pk (some (key.keyId, key.disabledAt.isSome)) := by
  funext pk'
  unfold keyRecords
  rw [Table.get?_save keys hold, Function.update_apply]
  split <;> rfl

/-- The keys of the service after one of them is set. -/
theorem get?_setKey (keys : ServiceKeys) (keyId : String) (enabled : Bool) :
    Dict.get? (Dict.insert keys keyId enabled) =
      Function.update (Dict.get? keys) keyId (some enabled) := by
  funext other
  rw [Dict.get?_insert, Function.update_apply]

/-- A rotation adds a record and leaves the others: the old row keeps its identifier. -/
theorem keyRecords_rotate {keys keys' : Table KMSKey} {pk : Nat} {key newKey rotated : KMSKey}
    (hget : keys.get? pk = some key) (hkeys : keys' = keys.create newKey)
    (hkeyId : rotated.keyId = key.keyId) (hdisabled : rotated.disabledAt = key.disabledAt) :
    keyRecords (keys'.save pk rotated) = keyRecords (keys.create newKey) := by
  have hne : pk ≠ keys.nextPk := fun heq => Nat.lt_irrefl _
    (heq ▸ keys.pk_lt pk (List.mem_map_of_mem (Table.get?_eq_some.mp hget)))
  have hold : (keys.create newKey).get? pk = some key := by
    rw [Table.get?_create, if_neg hne]
    exact hget
  rw [hkeys, keyRecords_save hold, hkeyId, hdisabled]
  refine Function.update_eq_self_iff.mpr ?_
  unfold keyRecords
  rw [hold]
  rfl

/-! ### What the service gives -/

/-- What the service gives for a new key: none, one without a public key or an alias, which is
disabled again if that works, or one that can be stored. -/
inductive Offer
  | refused
  | unusable (keyId : String) (disabled : Bool)
  | usable (keyId : String)
  deriving DecidableEq

/-- What the service gives in `create_key`. -/
def creationOffer (call : KeyCall) (now : DateTime) (db : KmsDatabase Xls) (org : Nat)
    (createdBy : Option String) : Offer :=
  let description := keyDescription db now org
  match organizationUsername db org with
  | .error _ => .refused
  | .ok username =>
      match call.client.createKey (kmsDescription description createdBy) with
      | .error _ => .refused
      | .ok keyId =>
          match publicKeyWithAlias call.client (keyAlias call username description) keyId with
          | .error _ => .unusable keyId (call.client.disableKey keyId).isOk
          | .ok _ => .usable keyId

/-- What the service gives in `rotate_key`, for a key that is neither disabled nor rotated. -/
def rotationOffer (call : KeyCall) (clock : RotationClock) (db : KmsDatabase Xls) (pk : Nat)
    (rotatedBy : Option String) : Offer :=
  match db.kmsKeys.get? pk with
  | none => .refused
  | some key =>
      if key.disabledAt = none ∧ key.rotatedAt = none then
        creationOffer call clock.created db key.objectId rotatedBy
      else .refused

/-- What an operation leaves that does not commit. -/
def rolledBack (offer : Offer) (s : KeySession Xls) : KeySession Xls :=
  match offer with
  | .refused => s
  | .unusable keyId disabled =>
      let keys := Dict.insert s.memory keyId true
      { s with memory := if disabled then Dict.insert keys keyId false else keys }
  | .usable keyId => { s with memory := Dict.insert s.memory keyId true }

theorem rolledBack_db (offer : Offer) (s : KeySession Xls) :
    { rolledBack offer s with db := s.db } = rolledBack offer s := by
  cases offer <;> rfl

/-- The outcome of an operation that makes a key: `stored` are the rows that it would commit. -/
inductive KeyOutcome (offer : Offer) (refusal : Option String)
    (stored : Except KmsError (KmsDatabase Xls × Nat × KMSKey)) (s : KeySession Xls) :
    EStateM.Result KmsError (KeySession Xls) (Nat × KMSKey) → Prop
  | made {keyId : String} {db' : KmsDatabase Xls} {newKey : Nat × KMSKey}
      (hoffer : offer = .usable keyId) (hrefusal : refusal = none)
      (hstored : stored = .ok (db', newKey)) (hkey : newKey.2.keyId = keyId)
      (hopen : newKey.2.disabledAt = none)
      (hrows : keyRecords db'.kmsKeys = keyRecords (s.db.kmsKeys.create newKey.2)) :
      KeyOutcome offer refusal stored s (.ok newKey ⟨db', Dict.insert s.memory keyId true⟩)
  | failed {error : KmsError}
      (hfails : ∀ keyId, offer = .usable keyId →
        refusal ≠ none ∨ ∀ result, stored ≠ .ok result) :
      KeyOutcome offer refusal stored s (.error error (rolledBack offer s))

/-- A key that is made stays in the service when its rows are not made. -/
theorem KeyOutcome.notStored {keyId : String} {refusal : Option String} {s : KeySession Xls}
    (error error' : KmsError) : KeyOutcome (.usable keyId) refusal (.error error') s
      (.error error { s with memory := Dict.insert s.memory keyId true }) :=
  .failed fun _ _ => .inr fun _ => by simp

/-- A key that is made stays in the service when its rows are not committed. -/
theorem KeyOutcome.notCommitted {keyId : String} {s : KeySession Xls}
    {stored : Except KmsError (KmsDatabase Xls × Nat × KMSKey)} (error : KmsError)
    (constraint : String) : KeyOutcome (.usable keyId) (some constraint) stored s
      (.error error { s with memory := Dict.insert s.memory keyId true }) :=
  .failed fun _ _ => .inl (Option.some_ne_none _)

/-! ### The operations -/

/-- The rows that `create_key` commits, in the order of the service. -/
theorem storedKey_eq (call : KeyCall) (now : DateTime) (db : KmsDatabase Xls) (org : Nat)
    (createdBy : Option String) :
    Onadata.createKey call.settings call.client.toKmsClient now db org createdBy = (do
      let description := keyDescription db now org
      let username ← organizationUsername db org
      let keyId ← (call.client.createKey (kmsDescription description createdBy)).mapError
        .clientError
      let publicKey ← publicKeyWithAlias call.client (keyAlias call username description) keyId
      let key ← newKmsKey call now db org createdBy description keyId publicKey
      return ({ db with kmsKeys := db.kmsKeys.create key }, db.kmsKeys.nextPk, key)) := by
  simp only [Onadata.createKey, publicKeyWithAlias, newKmsKey, bind_assoc, pure_bind]
  rfl

/-- The outcome of `create_key`. -/
theorem createKey_outcome (call : KeyCall) (now : DateTime) (s : KeySession Xls) (org : Nat)
    (createdBy : Option String) :
    KeyOutcome (creationOffer call now s.db org createdBy) call.refusal
      (Onadata.createKey call.settings call.client.toKmsClient now s.db org createdBy) s
      (KeyService.createKey call now org createdBy s) := by
  rw [storedKey_eq]
  simp only [KeyService.createKey, committed, atomic, seq_run, tryCatch_run, attempt_run,
    return_run, getDb, getMemory, setMemory, raise, write, createServiceKey, disableServiceKey]
  unfold creationOffer
  cases organizationUsername s.db org with
  | error error => exact .failed fun _ h => Offer.noConfusion h
  | ok username =>
      dsimp only [bind, Except.bind]
      cases call.client.createKey (kmsDescription (keyDescription s.db now org) createdBy) with
      | error message => exact .failed fun _ h => Offer.noConfusion h
      | ok keyId =>
          dsimp only [Except.mapError]
          cases publicKeyWithAlias call.client (keyAlias call username (keyDescription s.db now org))
              keyId with
          | error error =>
              -- The call that disables the key can fail as well.
              cases call.client.disableKey keyId <;>
                exact .failed fun _ h => Offer.noConfusion h
          | ok publicKey =>
              dsimp only
              cases hkey : newKmsKey call now s.db org createdBy (keyDescription s.db now org)
                keyId publicKey with
              | error error => exact .notStored _ _
              | ok key =>
                  have hrow : key.keyId = keyId ∧ key.disabledAt = none := by
                    unfold newKmsKey at hkey
                    obtain ⟨_, -, hkey⟩ := bind_eq_ok.mp hkey
                    obtain ⟨_, -, hkey⟩ := bind_eq_ok.mp hkey
                    obtain ⟨_, -, hkey⟩ := bind_eq_ok.mp hkey
                    obtain rfl := pure_eq_ok.mp hkey
                    exact ⟨rfl, rfl⟩
                  cases hrefusal : call.refusal with
                  | some constraint => exact .notCommitted _ _
                  | none => exact .made rfl rfl rfl hrow.1 hrow.2 rfl

variable {cfg : SaveSettings} {lib : FormLibrary Xls Survey}

/-- The encryption of forms leaves the keys. -/
theorem kmsKeys_encryptForms {encrypted : Nat → DateTime} {newKey : Nat × KMSKey}
    {rotatedBy : Option String} {items : List (Nat × EncryptedForm Xls)} {db db' : KmsDatabase Xls}
    (h : items.foldlM (fun db item =>
      encryptXformWith cfg lib (encrypted item.1) db item.1 item.2 newKey rotatedBy) db = .ok db') :
    db'.kmsKeys = db.kmsKeys :=
  (foldlM_rule items (fun mid => mid.kmsKeys = db.kmsKeys) (fun _ => True) rfl
    fun _ _ _ hmid => ⟨fun _ hitem => (encryptXformWith_spec hitem).kmsKeys.trans hmid,
      fun _ _ => trivial⟩).1 db' h

/-- The outcome of `rotate_key`. -/
theorem rotateKey_outcome (call : KeyCall) (clock : RotationClock) (s : KeySession Xls) (pk : Nat)
    (rotatedBy rotationReason : Option String) :
    KeyOutcome (rotationOffer call clock s.db pk rotatedBy) call.refusal
      (Onadata.rotateKey cfg lib call.settings call.client.toKmsClient clock s.db pk rotatedBy
        rotationReason) s
      (KeyService.rotateKey cfg lib call clock pk rotatedBy rotationReason s) := by
  simp only [KeyService.rotateKey, committed, atomic, seq_run, getDb]
  unfold rotationOffer Onadata.rotateKey
  cases hget : s.db.kmsKeys.get? pk with
  | none => exact .failed fun _ h => Offer.noConfusion h
  | some key =>
      simp only [seq_run, attempt_run, return_run, ensure, getDb, write]
      by_cases hdisabled : key.disabledAt = none
      · by_cases hrotated : key.rotatedAt = none
        · simp only [hdisabled, hrotated, if_true, true_and]
          dsimp only [bind, Except.bind]
          have hcreate := createKey_outcome { call with refusal := none } clock.created s
            key.objectId rotatedBy
          generalize KeyService.createKey { call with refusal := none } clock.created
            key.objectId rotatedBy s = result at hcreate ⊢
          cases hcreate with
          | failed hfails =>
              rename_i error
              -- The inner transaction has taken the rows back already.
              show KeyOutcome _ _ _ s (.error error { rolledBack _ s with db := s.db })
              rw [rolledBack_db]
              refine .failed fun keyId hoffer => .inr fun result => ?_
              have hstored := (hfails keyId hoffer).resolve_left (fun h => h rfl)
              cases hcreated : Onadata.createKey call.settings call.client.toKmsClient clock.created
                s.db key.objectId rotatedBy with
              | error error => simp
              | ok created => exact absurd hcreated (hstored created)
          | @made keyId created newKey hoffer _ hstored hkey hopen _ =>
              rw [show creationOffer call clock.created s.db key.objectId rotatedBy =
                .usable keyId from hoffer,
                show Onadata.createKey call.settings call.client.toKmsClient clock.created s.db
                  key.objectId rotatedBy = .ok (created, newKey) from hstored]
              dsimp only
              -- From here on the service has the new key, whatever becomes of its row.
              cases hforms : created.formsOfKey pk |>.foldlM (fun db item => encryptXformWith cfg lib
                (clock.encrypted item.1) db item.1 item.2 newKey rotatedBy) created with
              | error error => exact .notStored _ _
              | ok db =>
                  have hkeys : db.kmsKeys = s.db.kmsKeys.create newKey.2 :=
                    (kmsKeys_encryptForms hforms).trans (by rw [(createKey_spec hstored).1])
                  dsimp only
                  cases forcedExpiryDate key clock.expired with
                  | error error => exact .notStored _ _
                  | ok expiryDate =>
                      dsimp only
                      cases expiryDate.add call.settings.gracePeriodDuration with
                      | error error => exact .notStored _ _
                      | ok graceEndDate =>
                          cases call.refusal with
                          | some constraint => exact .notCommitted _ _
                          | none =>
                              exact .made rfl rfl rfl hkey hopen
                                (keyRecords_rotate hget hkeys rfl hdisabled.symm)
        · simp only [hdisabled, hrotated, if_true, if_false, and_false]
          exact .failed fun _ h => Offer.noConfusion h
      · simp only [hdisabled, if_false, false_and]
        exact .failed fun _ h => Offer.noConfusion h

/-! ### The ledger after an operation -/

/-- The key that the service has made. -/
def Offer.keyId : Offer → Option String
  | .refused => none
  | .unusable keyId _ => some keyId
  | .usable keyId => some keyId

/-- The service keeps an enabled key that no row is made for: it cannot be used and is not
disabled, or its rows are not committed. -/
def Lost (offer : Offer) (refusal : Option String)
    (stored : Except KmsError (KmsDatabase Xls × Nat × KMSKey)) : Prop :=
  (∃ keyId, offer = .unusable keyId false) ∨
    (∃ keyId, offer = .usable keyId) ∧ (refusal ≠ none ∨ ∀ result, stored ≠ .ok result)

/-- What an operation that makes a key does to the ledger. -/
theorem KeyOutcome.change {offer : Offer} {refusal : Option String}
    {stored : Except KmsError (KmsDatabase Xls × Nat × KMSKey)} {s : KeySession Xls}
    {result : EStateM.Result KmsError (KeySession Xls) (Nat × KMSKey)}
    (h : KeyOutcome offer refusal stored s result)
    (hnew : ∀ keyId, offer.keyId = some keyId → Dict.get? s.memory keyId = none) :
    ∃ change, (ledger s).Allows change ∧ ledger (finalState result) = (ledger s).apply change ∧
      (¬ Lost offer refusal stored ↔ ∀ keyId, change ≠ .leak keyId) := by
  cases h with
  | @made keyId db' newKey hoffer hrefusal hstored hkey hopen hrows =>
      have hpk : s.db.kmsKeys.get? s.db.kmsKeys.nextPk = none :=
        Dict.get?_eq_none.mpr fun hpk => Nat.lt_irrefl _ (s.db.kmsKeys.pk_lt _ hpk)
      refine ⟨.record s.db.kmsKeys.nextPk keyId, ⟨hnew keyId (hoffer ▸ rfl), ?_⟩, ?_, ?_⟩
      · show keyRecords s.db.kmsKeys _ = none
        rw [keyRecords, hpk]
        rfl
      · ext1
        · show keyRecords db'.kmsKeys = _
          rw [hrows, keyRecords_create, hkey, hopen]
          rfl
        · exact get?_setKey s.memory keyId true
      · simp [Lost, hoffer, hrefusal, hstored]
  | failed hfails =>
      cases offer with
      | refused => exact ⟨.same, trivial, rfl, by simp [Lost]⟩
      -- The key is enabled first, and then disabled again if the service does it.
      | unusable keyId disabled =>
          cases disabled with
          | true =>
              refine ⟨.discard keyId, hnew keyId rfl, Ledger.ext rfl ?_, by simp [Lost]⟩
              show Dict.get? (Dict.insert (Dict.insert s.memory keyId true) keyId false) = _
              rw [get?_setKey, get?_setKey, Function.update_idem]
              rfl
          | false =>
              exact ⟨.leak keyId, hnew keyId rfl, Ledger.ext rfl (get?_setKey s.memory keyId true),
                by simp [Lost]⟩
      | usable keyId =>
          refine ⟨.leak keyId, hnew keyId rfl, Ledger.ext rfl (get?_setKey s.memory keyId true), ?_⟩
          have hlost : Lost (.usable keyId) refusal stored := .inr ⟨⟨keyId, rfl⟩, hfails keyId rfl⟩
          simp [hlost]

/-- What `disable_key` does to the ledger. -/
theorem disableKey_change (call : KeyCall) (now : DateTime) (s : KeySession Xls) (pk : Nat) :
    ∃ change, (ledger s).Allows change ∧
      ledger (finalState (KeyService.disableKey call now pk s)) = (ledger s).apply change ∧
      ∀ keyId, change ≠ .leak keyId := by
  simp only [KeyService.disableKey, committed, atomic, seq_run, getDb]
  cases hget : s.db.kmsKeys.get? pk with
  | none => exact ⟨.same, trivial, rfl, fun _ => by simp⟩
  | some key =>
      have hrecord : (ledger s).records pk = some (key.keyId, key.disabledAt.isSome) :=
        congrArg (Option.map _) hget
      dsimp only
      by_cases hopen : key.disabledAt = none
      · rw [hopen] at hrecord
        simp only [hopen, ne_eq, not_true_eq_false, if_false, disableServiceKey, seq_run,
          attempt_run, getMemory, setMemory, write]
        cases call.client.disableKey key.keyId with
        | error message => exact ⟨.same, trivial, rfl, fun _ => by simp⟩
        | ok _ =>
            -- The row is as it was when the commit is refused.
            cases call.refusal with
            | some constraint =>
                exact ⟨.release pk key.keyId, hrecord,
                  Ledger.ext rfl (get?_setKey s.memory key.keyId false), fun _ => by simp⟩
            | none =>
                exact ⟨.retire pk key.keyId, hrecord, Ledger.ext (keyRecords_save hget _)
                  (get?_setKey s.memory key.keyId false), fun _ => by simp⟩
      · rw [if_pos hopen]
        exact ⟨.same, trivial, by cases call.refusal <;> rfl, fun _ => by simp⟩

/-! ### Runs -/

/-- An operation on the keys. -/
inductive KeyEvent
  | create (call : KeyCall) (now : DateTime) (org : Nat) (createdBy : Option String)
  | rotate (call : KeyCall) (clock : RotationClock) (pk : Nat)
      (rotatedBy rotationReason : Option String)
  | disable (call : KeyCall) (now : DateTime) (pk : Nat)

/-- What the service gives in the operation. -/
def KeyEvent.offer (db : KmsDatabase Xls) : KeyEvent → Offer
  | .create call now org createdBy => creationOffer call now db org createdBy
  | .rotate call clock pk rotatedBy _ => rotationOffer call clock db pk rotatedBy
  | .disable _ _ _ => .refused

variable (cfg) (lib)

/-- An operation, which can fail. -/
def KeyStep (s : KeySession Xls) (event : KeyEvent) (s' : KeySession Xls) : Prop :=
  s' = match event with
    | .create call now org createdBy => finalState (KeyService.createKey call now org createdBy s)
    | .rotate call clock pk rotatedBy rotationReason =>
        finalState (KeyService.rotateKey cfg lib call clock pk rotatedBy rotationReason s)
    | .disable call now pk => finalState (KeyService.disableKey call now pk s)

/-- The service gives no identifier a second time. -/
def NewIds (s : KeySession Xls) (event : KeyEvent) (_ : KeySession Xls) : Prop :=
  ∀ keyId, (event.offer s.db).keyId = some keyId → Dict.get? s.memory keyId = none

/-- An operation at a service that gives new identifiers. -/
abbrev NewIdStep : KeySession Xls → KeyEvent → KeySession Xls → Prop :=
  Guarded (KeyStep cfg lib) NewIds

/-- The operation loses no key. -/
def KeepsKeys (s : KeySession Xls) (event : KeyEvent) (_ : KeySession Xls) : Prop :=
  match event with
  | .create call now org createdBy =>
      ¬ Lost (creationOffer call now s.db org createdBy) call.refusal
        (Onadata.createKey call.settings call.client.toKmsClient now s.db org createdBy)
  | .rotate call clock pk rotatedBy rotationReason =>
      ¬ Lost (rotationOffer call clock s.db pk rotatedBy) call.refusal
        (Onadata.rotateKey cfg lib call.settings call.client.toKmsClient clock s.db pk rotatedBy
          rotationReason)
  | .disable _ _ _ => True

variable {cfg} {lib}

/-- What one operation does to the ledger. -/
theorem keyStep_change {s s' : KeySession Xls} {event : KeyEvent}
    (hstep : NewIdStep cfg lib s event s') :
    ∃ change, (ledger s).Allows change ∧ ledger s' = (ledger s).apply change ∧
      (KeepsKeys cfg lib s event s' ↔ ∀ keyId, change ≠ .leak keyId) := by
  obtain ⟨rfl, hnew⟩ := hstep
  cases event with
  | create call now org createdBy => exact (createKey_outcome call now s org createdBy).change hnew
  | rotate call clock pk rotatedBy rotationReason =>
      exact (rotateKey_outcome call clock s pk rotatedBy rotationReason).change hnew
  | disable call now pk =>
      obtain ⟨change, hallows, hledger, hnoLeak⟩ := disableKey_change call now s pk
      exact ⟨change, hallows, hledger, iff_of_true trivial hnoLeak⟩

/-- Along every run, each row is of a key of the service, no two are of the same one, and a key
whose row is disabled is disabled. Each enabled key has a row that is not disabled, exactly when no
operation has lost a key. -/
theorem keys_held_iff {s s' : KeySession Xls} {events : List KeyEvent}
    (hstart : (ledger s).Consistent) (hheld : ∀ keyId, ¬ (ledger s).Orphan keyId)
    (hrun : Run (NewIdStep cfg lib) s events s') :
    (ledger s').Consistent ∧ ((∀ keyId, ¬ (ledger s').Orphan keyId) ↔
      Run (Guarded (NewIdStep cfg lib) (KeepsKeys cfg lib)) s events s') := by
  have hiff := Ledger.run_iff ledger (fun s event s' hstep _ => keyStep_change hstep) hstart hrun
  exact ⟨hiff.1, hiff.2.trans (and_iff_right hheld)⟩

end

/-! ### A row that is refused -/

/-- An organization without a key. -/
def keyless : KeySession Unit :=
  ⟨{ organizations := [(7, "ministry")], xforms := .empty, kmsKeys := .empty }, []⟩

/-- The database refuses the row of a key. -/
def refusedCall : KeyCall where
  client := { smallClient with disableKey := fun _ => .ok () }
  refusal := some "object_id"

/-- The key of the refused row stays enabled. -/
theorem not_keys_held_refused :
    ¬ ∀ keyId, ¬ (ledger (finalState
      (KeyService.createKey refusedCall firstMinute 7 none keyless))).Orphan keyId := by
  intro hnone
  have hrun : Run (NewIdStep smallSettings smallLibrary) keyless
      [.create refusedCall firstMinute 7 none] _ := .cons ⟨rfl, fun _ _ => rfl⟩ (.nil _)
  have hoffer : creationOffer refusedCall firstMinute keyless.db 7 none = .usable "key-2" := by
    decide +kernel
  have hrecords : ∀ pk, (ledger keyless).records pk = none := fun _ => rfl
  have hstart : (ledger keyless).Consistent := by constructor <;> simp [hrecords]
  have hheld : ∀ keyId, ¬ (ledger keyless).Orphan keyId := fun _ horphan => by cases horphan.1
  obtain ⟨mid, ⟨-, hkeeps⟩, -⟩ := Run.cons_iff.mp ((keys_held_iff hstart hheld hrun).2.mp hnone)
  exact hkeeps (.inr ⟨⟨_, hoffer⟩, .inl (Option.some_ne_none _)⟩)

end Onadata.Proofs
