import Onadata.Apps.SmsSupport.Parser
import Onadata.Lib.Run

/-!
# `Onadata.Proofs.Apps.SmsSupport.MessageBatch`: a batch against its messages

`process_incoming_smses` on a batch parses all the messages first and submits those that are
parsed afterwards. `processedSingly_iff` states when that is the same as to process the messages
one after the other: when no exception escapes, no refused message comes behind a parsed one,
and the success text of the batch says the same as that of each form.
-/

set_option autoImplicit false

namespace Onadata.Proofs

open Onadata Onadata.Lib

/-! ### The results of the messages -/

section Results
variable (site : SmsSite) (idString : Option String)

/-- What a message comes to before its submission: an exception that escapes, a response, or
what is to be submitted, with the success text when it is the only message. -/
def messageResult (incoming : List String) :
    Except SmsError (SmsResponse ⊕ String × PreparedSms) :=
  match processIncoming site incoming idString with
  | (_, .error (.valueError text)) => .ok (.inl { code := .parsingError, text := text })
  | (_, .error error) => .error error
  | (_, .ok (.inl response)) => .ok (.inl response)
  | (success, .ok (.inr prepared)) => .ok (.inr (success.getD defaultSuccess, prepared))

/-- The message is answered without a submission. -/
def Refused (incoming : List String) : Prop :=
  ∃ response, messageResult site idString incoming = .ok (.inl response)

/-- The message is parsed. -/
def Parsed (incoming : List String) : Prop :=
  ∃ prepared, messageResult site idString incoming = .ok (.inr prepared)

/-- The messages that are parsed, in order, each with its own success text. -/
def parsedMessages (incomings : List (List String)) : List (String × PreparedSms) :=
  incomings.filterMap fun incoming =>
    match messageResult site idString incoming with
    | .ok (.inr prepared) => some prepared
    | _ => none

/-- The success text after a batch: that of the last form with one. -/
def lastSuccess (incomings : List (List String)) (success : String) : String :=
  incomings.foldl (fun success incoming =>
    (processIncoming site incoming idString).1.getD success) success

/-- One round of the first loop, by the result of the message. -/
theorem collectIncoming_eq (batch : SmsBatch) (incoming : List String) :
    collectIncoming site idString batch incoming =
      (messageResult site idString incoming).map fun result =>
        { responses := batch.responses ++ result.getLeft?.toList
          success := (processIncoming site incoming idString).1.getD batch.success
          prepared := batch.prepared ++ (result.getRight?.map (·.2)).toList } := by
  unfold collectIncoming messageResult
  obtain ⟨success, result⟩ := processIncoming site incoming idString
  cases result with
  | error error => cases error <;> simp [Except.map, pure, Except.pure, throw, throwThe, MonadExceptOf.throw]
  | ok result => cases result <;> simp [Except.map, pure, Except.pure]

/-- The success text of a message alone. -/
theorem own_eq {incoming : List String} {own : String} {prepared : PreparedSms}
    (h : messageResult site idString incoming = .ok (.inr (own, prepared))) :
    own = (processIncoming site incoming idString).1.getD defaultSuccess := by
  unfold messageResult at h
  generalize processIncoming site incoming idString = pair at h ⊢
  obtain ⟨success, result⟩ := pair
  cases result with
  | error error => cases error <;> cases h
  | ok result =>
      cases result with
      | inl response => cases h
      | inr prepared =>
          cases h
          rfl

/-- The first loop, by the results of the messages. -/
theorem collect_iff (incomings : List (List String)) :
    ∀ {batch batch' : SmsBatch},
      incomings.foldlM (collectIncoming site idString) batch = .ok batch' ↔
        ∃ results, incomings.mapM (messageResult site idString) = .ok results ∧ batch' =
          { responses := batch.responses ++ results.filterMap Sum.getLeft?
            success := lastSuccess site idString incomings batch.success
            prepared := batch.prepared ++ (results.filterMap Sum.getRight?).map (·.2) } := by
  induction incomings with
  | nil =>
      intro batch batch'
      rw [List.foldlM_nil, pure_eq_ok]
      constructor
      · rintro rfl
        refine ⟨[], rfl, ?_⟩
        show batch = ⟨batch.responses ++ [], batch.success, batch.prepared ++ []⟩
        rw [List.append_nil, List.append_nil]
      · rintro ⟨results, hresults, rfl⟩
        obtain rfl := pure_eq_ok.mp hresults
        show batch = ⟨batch.responses ++ [], batch.success, batch.prepared ++ []⟩
        rw [List.append_nil, List.append_nil]
  | cons incoming incomings ih =>
      intro batch batch'
      have hround : ∀ result : SmsResponse ⊕ String × PreparedSms,
          ∀ results : List (SmsResponse ⊕ String × PreparedSms),
          (result :: results).filterMap Sum.getLeft? =
              result.getLeft?.toList ++ results.filterMap Sum.getLeft? ∧
            ((result :: results).filterMap Sum.getRight?).map (·.2) =
              (result.getRight?.map (·.2)).toList ++
                (results.filterMap Sum.getRight?).map (·.2) := by
        intro result results
        cases result <;> exact ⟨rfl, rfl⟩
      rw [List.foldlM_cons, bind_eq_ok, collectIncoming_eq]
      constructor
      · rintro ⟨mid, hmid, hrest⟩
        obtain ⟨result, hresult, rfl⟩ := map_eq_ok.mp hmid
        obtain ⟨results, hresults, rfl⟩ := ih.mp hrest
        refine ⟨result :: results, ?_, ?_⟩
        · rw [List.mapM_cons, hresult, hresults]
          rfl
        · rw [(hround result results).1, (hround result results).2]
          simp only [List.append_assoc]
          rfl
      · rintro ⟨all, hall, rfl⟩
        rw [List.mapM_cons] at hall
        obtain ⟨result, hresult, hall⟩ := bind_eq_ok.mp hall
        obtain ⟨results, hresults, hall⟩ := bind_eq_ok.mp hall
        obtain rfl := pure_eq_ok.mp hall
        refine ⟨_, map_eq_ok.mpr ⟨result, hresult, rfl⟩, ih.mpr ⟨results, hresults, ?_⟩⟩
        rw [(hround result results).1, (hround result results).2]
        simp only [List.append_assoc]
        rfl

end Results

/-! ### The exceptions that escape -/

section Escapes
variable (site : SmsSite) (idString : Option String)

/-- The test of the look-up of the form: none when the text has no keyword before it. -/
def formLookup (text : String) : (idString : Option String) → Option (SmsForm → Bool)
  | none => (splitWord text).map fun split form => form.smsIdString = split.1 ∧ !form.deleted
  | some idString => some fun form => form.idString = idString ∧ !form.deleted

/-- Identity and text of a message are not empty. -/
def Filled (identity text : String) : Prop :=
  strip (site.rt.lower (strip identity)) ≠ "" ∧ strip (site.rt.lower (strip text)) ≠ ""

/-- An exception that is no `ValueError`. -/
def Uncaught (error : SmsError) : Prop :=
  ∀ cause, error ≠ .valueError cause

/-- A message that lets an exception escape: the look-up does not find one form, or an answer or
a note raises more than a `ValueError`. -/
inductive Escapes : List String → Prop
  | form {identity text : String} {rest : List String} {p : SmsForm → Bool}
      (filled : Filled site identity text)
      (lookup : formLookup (site.rt.lower (strip text)) (messageIdString idString rest) = some p)
      (found : site.forms.countP p ≠ 1) : Escapes (identity :: text :: rest)
  | answer {identity text : String} {rest : List String} {form : SmsForm} {answers : String}
      {error : SmsError} (filled : Filled site identity text)
      (found : findForm site (site.rt.lower (strip text)) (messageIdString idString rest) =
        .ok (form, answers))
      (accepts : form.allowsSms = true)
      (parse : parseSmsText site.rt form.survey
        ⟨site.rt.lower (strip identity), site.now, site.today⟩ answers = .error error)
      (uncaught : Uncaught error) : Escapes (identity :: text :: rest)
  | note {identity text : String} {rest : List String} {form : SmsForm} {answers : String}
      {parsed : SmsParsed} {error : SmsError} (filled : Filled site identity text)
      (found : findForm site (site.rt.lower (strip text)) (messageIdString idString rest) =
        .ok (form, answers))
      (accepts : form.allowsSms = true)
      (parse : parseSmsText site.rt form.survey
        ⟨site.rt.lower (strip identity), site.now, site.today⟩ answers = .ok parsed)
      (finish : finishIncoming site.rt form parsed = .error error)
      (uncaught : Uncaught error) : Escapes (identity :: text :: rest)

/-- A look-up by a test raises exactly when the test does not hold of one form. -/
theorem lookup_uncaught_iff (p : SmsForm → Bool) (text : String) :
    (∃ error, ((objectsGet site.forms p).mapError ofGetError).map (fun form => (form, text)) =
      .error error ∧ Uncaught error) ↔ site.forms.countP p ≠ 1 := by
  rw [← objectsGet_eq_error_iff]
  cases objectsGet site.forms p with
  | ok form =>
      constructor
      · rintro ⟨error, h, -⟩
        cases h
      · rintro ⟨error, h⟩
        cases h
  | error error =>
      refine iff_of_true ⟨ofGetError error, rfl, fun cause h => ?_⟩ ⟨error, rfl⟩
      cases error <;> cases h

/-- The look-up of the form raises more than a `ValueError` when it does not find one form. -/
theorem findForm_uncaught_iff (text : String) :
    (∃ error, findForm site text idString = .error error ∧ Uncaught error) ↔
      ∃ p, formLookup text idString = some p ∧ site.forms.countP p ≠ 1 := by
  have hsome : ∀ {p q : SmsForm → Bool}, (some q = some p ∧ site.forms.countP p ≠ 1) ↔
      (q = p ∧ site.forms.countP q ≠ 1) := by
    intro p q
    rw [Option.some_inj]
    exact and_congr_right fun heq => heq ▸ Iff.rfl
  unfold formLookup
  cases idString with
  | some idString =>
      have hfind : findForm site text (some idString) =
          ((objectsGet site.forms fun form => form.idString = idString ∧ !form.deleted).mapError
            ofGetError).map fun form => (form, text) := by
        unfold findForm
        dsimp only
        cases objectsGet site.forms _ <;> rfl
      rw [hfind, lookup_uncaught_iff]
      simp only [hsome, exists_eq_left']
  | none =>
      cases hsplit : splitWord text with
      | none =>
          unfold findForm
          rw [hsplit]
          constructor
          · rintro ⟨error, h, huncaught⟩
            cases h
            exact absurd rfl (huncaught _)
          · rintro ⟨p, hp, -⟩
            cases hp
      | some split =>
          have hfind : findForm site text none =
              ((objectsGet site.forms fun form =>
                form.smsIdString = split.1 ∧ !form.deleted).mapError ofGetError).map
                  fun form => (form, split.2) := by
            unfold findForm
            rw [hsplit]
            dsimp only
            cases objectsGet site.forms _ <;> rfl
          rw [hfind, lookup_uncaught_iff, Option.map_some]
          simp only [hsome, exists_eq_left']

/-- A message lets the exceptions of `process_incoming` escape, but for a `ValueError`. -/
theorem messageResult_eq_error_iff {incoming : List String} {error : SmsError} :
    messageResult site idString incoming = .error error ↔
      (processIncoming site incoming idString).2 = .error error ∧ Uncaught error := by
  unfold messageResult
  generalize processIncoming site incoming idString = pair
  obtain ⟨success, result⟩ := pair
  cases result with
  | error found =>
      cases found
      case valueError text =>
        constructor
        · intro h
          cases h
        · rintro ⟨h, huncaught⟩
          cases h
          exact absurd rfl (huncaught text)
      all_goals
        constructor
        · intro h
          cases h
          exact ⟨rfl, fun cause hcause => by cases hcause⟩
        · rintro ⟨h, -⟩
          exact congrArg _ (Except.error.inj h)
  | ok result =>
      cases result <;> exact iff_of_false (fun h => by cases h) fun h => by cases h.1

/-- The exceptions of `process_incoming`, by its two parts. -/
theorem processIncoming_eq_error_iff {incoming : List String} {error : SmsError} :
    (processIncoming site incoming idString).2 = .error error ↔
      readIncoming site incoming idString = .error error ∨
        ∃ xform parsed, readIncoming site incoming idString = .ok (.inr (xform, parsed)) ∧
          finishIncoming site.rt xform parsed = .error error := by
  unfold processIncoming
  cases readIncoming site incoming idString with
  | error found =>
      constructor
      · intro h
        exact Or.inl (congrArg _ (Except.error.inj h))
      · rintro (h | ⟨_, _, h, -⟩)
        · exact congrArg _ (Except.error.inj h)
        · cases h
  | ok result =>
      cases result with
      | inl response =>
          refine iff_of_false (fun h => by cases h) ?_
          rintro (h | ⟨_, _, h, -⟩) <;> cases h
      | inr read =>
          constructor
          · intro h
            exact Or.inr ⟨read.1, read.2, rfl, h⟩
          · rintro (h | ⟨_, _, hread, h⟩)
            · cases h
            · cases hread
              exact h

/-- The first part of `process_incoming`, on a message that is not empty. -/
theorem readIncoming_eq {identity text : String} {rest : List String}
    (hfilled : Filled site identity text) :
    readIncoming site (identity :: text :: rest) idString =
      (findForm site (site.rt.lower (strip text)) (messageIdString idString rest)).bind
        fun found =>
          if !found.1.allowsSms then
            .ok (.inl { code := .submissionRefused
                        text := "The form '" ++ found.1.idString ++
                          "' does not accept SMS submissions." })
          else
            (parseSmsText site.rt found.1.survey
              ⟨site.rt.lower (strip identity), site.now, site.today⟩ found.2).map
              fun parsed => .inr (found.1, parsed) := by
  unfold readIncoming
  simp only
  rw [if_neg (not_or.mpr hfilled)]
  cases findForm site (site.rt.lower (strip text)) (messageIdString idString rest) with
  | error error => rfl
  | ok found =>
      show (if _ then _ else _) = if _ then _ else _
      cases hallows : !found.1.allowsSms with
      | true => rfl
      | false =>
          simp only [Bool.false_eq_true, if_false]
          cases parseSmsText site.rt found.1.survey _ found.2 <;> rfl

/-- A message without identity or text is answered. -/
theorem readIncoming_of_not_filled {incoming : List String}
    (h : ∀ identity text rest, incoming = identity :: text :: rest → ¬ Filled site identity text) :
    ∃ response, readIncoming site incoming idString = .ok (.inl response) := by
  match incoming with
  | [] => exact ⟨_, rfl⟩
  | [_] => exact ⟨_, rfl⟩
  | identity :: text :: rest =>
      refine ⟨_, if_pos ?_⟩
      exact or_iff_not_and_not.mpr (h identity text rest rfl)

/-- The messages that let an exception escape. -/
theorem escapes_iff {incoming : List String} :
    (∃ error, messageResult site idString incoming = .error error) ↔
      Escapes site idString incoming := by
  simp only [messageResult_eq_error_iff, processIncoming_eq_error_iff]
  constructor
  · rintro ⟨error, herror, huncaught⟩
    by_cases hfilled : ∃ identity text rest, incoming = identity :: text :: rest ∧
        Filled site identity text
    · obtain ⟨identity, text, rest, rfl, hfilled⟩ := hfilled
      rw [readIncoming_eq site idString hfilled] at herror
      cases hfind : findForm site (site.rt.lower (strip text)) (messageIdString idString rest) with
      | error found =>
          rw [hfind] at herror
          have hfound : found = error := by
            rcases herror with h | ⟨_, _, h, -⟩
            · exact Except.error.inj h
            · cases h
          subst hfound
          obtain ⟨p, hlookup, hcount⟩ := (findForm_uncaught_iff site _ _).mp ⟨found, hfind, huncaught⟩
          exact .form hfilled hlookup hcount
      | ok found =>
          rw [hfind] at herror
          dsimp only [Except.bind] at herror
          cases hallows : found.1.allowsSms with
          | false =>
              rw [hallows] at herror
              rcases herror with h | ⟨_, _, h, -⟩ <;> cases h
          | true =>
              rw [hallows] at herror
              simp only [Bool.not_true, Bool.false_eq_true, if_false] at herror
              cases hparse : parseSmsText site.rt found.1.survey
                  ⟨site.rt.lower (strip identity), site.now, site.today⟩ found.2 with
              | error raised =>
                  rw [hparse] at herror
                  rcases herror with h | ⟨_, _, h, -⟩
                  · cases h
                    exact .answer hfilled hfind hallows hparse huncaught
                  · cases h
              | ok parsed =>
                  rw [hparse] at herror
                  rcases herror with h | ⟨xform, _, h, hfinish⟩
                  · cases h
                  · cases h
                    exact .note hfilled hfind hallows hparse hfinish huncaught
    · obtain ⟨response, hread⟩ := readIncoming_of_not_filled site idString
        fun identity text rest heq hfilled' => hfilled ⟨identity, text, rest, heq, hfilled'⟩
      rcases herror with h | ⟨_, _, h, -⟩ <;> cases hread.symm.trans h
  · intro h
    cases h with
    | form filled lookup found =>
        obtain ⟨error, hfind, huncaught⟩ :=
          (findForm_uncaught_iff site _ _).mpr ⟨_, lookup, found⟩
        refine ⟨error, Or.inl ?_, huncaught⟩
        rw [readIncoming_eq site idString filled, hfind]
        rfl
    | answer filled found accepts parse uncaught =>
        refine ⟨_, Or.inl ?_, uncaught⟩
        rw [readIncoming_eq site idString filled, found]
        dsimp only [Except.bind]
        rw [accepts, parse]
        rfl
    | note filled found accepts parse finish uncaught =>
        refine ⟨_, Or.inr ⟨_, _, ?_, finish⟩, uncaught⟩
        rw [readIncoming_eq site idString filled, found]
        dsimp only [Except.bind]
        rw [accepts, parse]
        rfl

end Escapes

/-! ### The submissions -/

section Submissions
variable {Db : Type} (site : SmsSite) (backend : SmsBackend Db)

/-- A submission as a step. -/
def SubmitStep (success : String) (db : Db) (prepared : PreparedSms) (db' : Db)
    (response : SmsResponse) : Prop :=
  submitOne site backend success db prepared = .ok (db', response)

/-- One round of the second loop adds the response. -/
theorem submitPrepared_eq_ok {success : String} {db db' : Db}
    {responses responses' : List SmsResponse} {prepared : PreparedSms} :
    submitPrepared site backend success (db, responses) prepared = .ok (db', responses') ↔
      ∃ response, SubmitStep site backend success db prepared db' response ∧
        responses' = responses ++ [response] := by
  unfold submitPrepared SubmitStep
  rw [bind_eq_ok]
  constructor
  · rintro ⟨⟨mid, response⟩, hone, hreturn⟩
    have heq := pure_eq_ok.mp hreturn
    rw [Prod.mk.injEq] at heq
    obtain ⟨rfl, rfl⟩ := heq
    exact ⟨response, hone, rfl⟩
  · rintro ⟨response, hone, rfl⟩
    exact ⟨(db', response), hone, rfl⟩

/-- The second loop. -/
theorem submit_iff (success : String) (prepared : List PreparedSms) :
    ∀ {db db' : Db} {responses responses' : List SmsResponse},
      prepared.foldlM (submitPrepared site backend success) (db, responses) =
          .ok (db', responses') ↔
        ∃ outs, Outputs (SubmitStep site backend success) db prepared db' outs ∧
          responses' = responses ++ outs := by
  induction prepared with
  | nil =>
      intro db db' responses responses'
      rw [List.foldlM_nil, pure_eq_ok, Prod.mk.injEq]
      constructor
      · rintro ⟨rfl, rfl⟩
        exact ⟨[], .nil db, (List.append_nil _).symm⟩
      · rintro ⟨outs, hrun, rfl⟩
        obtain ⟨rfl, rfl⟩ := Outputs.nil_iff.mp hrun
        exact ⟨rfl, (List.append_nil _).symm⟩
  | cons first prepared ih =>
      intro db db' responses responses'
      rw [List.foldlM_cons, bind_eq_ok]
      constructor
      · rintro ⟨⟨mid, responses₁⟩, hmid, hrest⟩
        obtain ⟨response, hfirst, rfl⟩ := (submitPrepared_eq_ok site backend).mp hmid
        obtain ⟨outs, hrun, rfl⟩ := ih.mp hrest
        exact ⟨response :: outs, .cons hfirst hrun, by rw [List.append_assoc]; rfl⟩
      · rintro ⟨outs, hrun, rfl⟩
        obtain ⟨db₁, response, rest, hfirst, hrest, rfl⟩ := Outputs.cons_iff.mp hrun
        refine ⟨(db₁, responses ++ [response]), ?_, ih.mpr ⟨rest, hrest, ?_⟩⟩
        · exact (submitPrepared_eq_ok site backend).mpr ⟨response, hfirst, rfl⟩
        · rw [List.append_assoc]
          rfl

/-- A message alone, by its result. -/
def ResultStep (db : Db) (result : SmsResponse ⊕ String × PreparedSms) (db' : Db)
    (response : SmsResponse) : Prop :=
  match result with
  | .inl refused => db' = db ∧ response = refused
  | .inr (own, prepared) => SubmitStep site backend own db prepared db' response

variable (idString : Option String)

/-- The batch, by the results of the messages. -/
theorem processIncomingSmses_iff {db db' : Db} {incomings : List (List String)}
    {responses : List SmsResponse} :
    processIncomingSmses site backend db incomings idString = .ok (db', responses) ↔
      ∃ results, incomings.mapM (messageResult site idString) = .ok results ∧
        ∃ outs, Outputs (SubmitStep site backend (lastSuccess site idString incomings defaultSuccess))
            db ((results.filterMap Sum.getRight?).map (·.2)) db' outs ∧
          responses = results.filterMap Sum.getLeft? ++ outs := by
  unfold processIncomingSmses
  rw [bind_eq_ok]
  constructor
  · rintro ⟨batch, hbatch, hsubmit⟩
    obtain ⟨results, hresults, rfl⟩ := (collect_iff site idString incomings).mp hbatch
    exact ⟨results, hresults, (submit_iff site backend _ _).mp hsubmit⟩
  · rintro ⟨results, hresults, hrun⟩
    exact ⟨_, (collect_iff site idString incomings).mpr ⟨results, hresults, rfl⟩,
      (submit_iff site backend _ _).mpr hrun⟩

/-- A message that is processed alone gives one response. -/
def AloneStep (db : Db) (incoming : List String) (db' : Db) (response : SmsResponse) : Prop :=
  processIncomingSmses site backend db [incoming] idString = .ok (db', [response])

/-- A message alone takes the step of its result. -/
theorem aloneStep_iff {db db' : Db} {incoming : List String} {response : SmsResponse} :
    AloneStep site backend idString db incoming db' response ↔
      ∃ result, messageResult site idString incoming = .ok result ∧
        ResultStep site backend db result db' response := by
  have hone : ∀ results, [incoming].mapM (messageResult site idString) = .ok results ↔
      ∃ result, messageResult site idString incoming = .ok result ∧ results = [result] := by
    intro results
    rw [mapM_eq_ok]
    constructor
    · intro h
      obtain ⟨result, rest, hresult, hrest, rfl⟩ := List.forall₂_cons_left_iff.mp h
      rw [List.forall₂_nil_left_iff] at hrest
      exact ⟨result, hresult, hrest ▸ rfl⟩
    · rintro ⟨result, hresult, rfl⟩
      exact .cons hresult .nil
  unfold AloneStep
  rw [processIncomingSmses_iff]
  simp only [hone]
  constructor
  · rintro ⟨_, ⟨result, hresult, rfl⟩, outs, hrun, hresponses⟩
    refine ⟨result, hresult, ?_⟩
    cases result with
    | inl refused =>
        obtain ⟨rfl, rfl⟩ := Outputs.nil_iff.mp hrun
        exact ⟨rfl, (List.cons.inj hresponses).1⟩
    | inr parsed =>
        obtain ⟨own, prepared⟩ := parsed
        obtain ⟨mid, out, rest, hstep, hrest, rfl⟩ := Outputs.cons_iff.mp hrun
        obtain ⟨rfl, rfl⟩ := Outputs.nil_iff.mp hrest
        obtain rfl : response = out := (List.cons.inj hresponses).1
        show SubmitStep site backend own db prepared db' response
        rw [own_eq site idString hresult]
        exact hstep
  · rintro ⟨result, hresult, hstep⟩
    refine ⟨[result], ⟨result, hresult, rfl⟩, ?_⟩
    cases result with
    | inl refused =>
        obtain ⟨rfl, rfl⟩ := hstep
        exact ⟨[], .nil _, rfl⟩
    | inr parsed =>
        obtain ⟨own, prepared⟩ := parsed
        have hstep : SubmitStep site backend own db prepared db' response := hstep
        rw [own_eq site idString hresult] at hstep
        exact ⟨[response], .cons hstep (.nil _), rfl⟩

/-- The messages one after the other, by their results. -/
theorem alone_iff (incomings : List (List String)) :
    ∀ {db db' : Db} {responses : List SmsResponse},
      Outputs (AloneStep site backend idString) db incomings db' responses ↔
        ∃ results, incomings.mapM (messageResult site idString) = .ok results ∧
          Outputs (ResultStep site backend) db results db' responses := by
  induction incomings with
  | nil =>
      intro db db' responses
      constructor
      · intro h
        obtain ⟨rfl, rfl⟩ := Outputs.nil_iff.mp h
        exact ⟨[], rfl, .nil _⟩
      · rintro ⟨results, hresults, hrun⟩
        obtain rfl := pure_eq_ok.mp hresults
        obtain ⟨rfl, rfl⟩ := Outputs.nil_iff.mp hrun
        exact .nil _
  | cons incoming incomings ih =>
      intro db db' responses
      constructor
      · intro h
        obtain ⟨mid, out, rest, hstep, hrest, rfl⟩ := Outputs.cons_iff.mp h
        obtain ⟨result, hresult, hstep⟩ := (aloneStep_iff site backend idString).mp hstep
        obtain ⟨results, hresults, hrun⟩ := ih.mp hrest
        refine ⟨result :: results, ?_, .cons hstep hrun⟩
        rw [List.mapM_cons, hresult, hresults]
        rfl
      · rintro ⟨all, hall, hrun⟩
        rw [List.mapM_cons] at hall
        obtain ⟨result, hresult, hall⟩ := bind_eq_ok.mp hall
        obtain ⟨results, hresults, hall⟩ := bind_eq_ok.mp hall
        obtain rfl := pure_eq_ok.mp hall
        obtain ⟨mid, out, rest, hstep, hrest, rfl⟩ := Outputs.cons_iff.mp hrun
        exact .cons ((aloneStep_iff site backend idString).mpr ⟨result, hresult, hstep⟩)
          (ih.mpr ⟨results, hresults, hrest⟩)

end Submissions

/-! ### Responses with and without a submission -/

/-- The response is one that `generate_instance` gives, but for the success text. -/
def FromSubmission (response : SmsResponse) : Prop :=
  response.code = .submissionAccepted ∨ response.code = .internalError ∨
    response.code = .submissionRefused ∧ response.text ∈ ["Username or ID required.",
      "Form is not active", "Form does not exist on this account", "Duplicate submission"]

/-- The responses of `generate_instance`. -/
theorem fromSubmission_generateInstance {outcome : CreateOutcome} {response : SmsResponse}
    (h : generateInstance outcome = .ok response) :
    FromSubmission response ∧ (response.id ≠ none ↔ response.code = .submissionAccepted) := by
  unfold FromSubmission
  cases outcome
  case other => cases h
  case created uuid =>
    cases h
    exact ⟨Or.inl rfl, fun _ => rfl, fun _ => Option.some_ne_none _⟩
  all_goals
    cases h
    decide

/-- The response to a submission. -/
theorem fromSubmission_of_submitStep {Db : Type} {site : SmsSite} {backend : SmsBackend Db}
    {success : String} {db db' : Db} {prepared : PreparedSms} {response : SmsResponse}
    (h : SubmitStep site backend success db prepared db' response) : FromSubmission response := by
  unfold SubmitStep submitOne at h
  cases hgenerate : generateInstance (backend.create db prepared).2 with
  | error exception =>
      rw [hgenerate] at h
      cases h
  | ok generated =>
      obtain ⟨hfrom, hid⟩ := fromSubmission_generateInstance hgenerate
      simp only [hgenerate] at h
      cases hnone : generated.id with
      | none =>
          simp only [hnone] at h
          cases h
          exact hfrom
      | some id =>
          simp only [hnone] at h
          obtain ⟨text, -, h⟩ := bind_eq_ok.mp h
          cases pure_eq_ok.mp h
          exact Or.inl (hid.mp (by rw [hnone]; exact Option.some_ne_none id))

/-- A text that starts with a letter is none that starts with another. -/
theorem append_not_mem_of_head {first rest : String} {texts : List String} {c : Char}
    (hfirst : first.toList.head? = some c) (h : ∀ text ∈ texts, text.toList.head? ≠ some c) :
    first ++ rest ∉ texts := by
  intro hmem
  refine h _ hmem ?_
  rw [String.toList_append, List.head?_append, hfirst]
  rfl

section Messages
variable {site : SmsSite} {idString : Option String} {incoming : List String}
  {response : SmsResponse}

/-- The responses of the first part. -/
theorem not_fromSubmission_read (h : readIncoming site incoming idString = .ok (.inl response)) :
    ¬ FromSubmission response := by
  have hempty : ∀ {text}, ¬ FromSubmission { code := .apiError, text := text } := by
    intro text hfrom
    rcases hfrom with h | h | ⟨h, -⟩ <;> cases h
  unfold readIncoming at h
  split at h
  · rename_i identity text rest
    dsimp only at h
    split at h
    · cases h
      exact hempty
    · obtain ⟨⟨xform, text'⟩, -, h⟩ := bind_eq_ok.mp h
      split at h
      · cases h
        rintro (h | h | ⟨-, htext⟩)
        · cases h
        · cases h
        · rw [String.append_assoc] at htext
          exact @append_not_mem_of_head _ _ _ 'T' (by decide) (by decide) htext
      · obtain ⟨parsed, -, h⟩ := bind_eq_ok.mp h
        cases pure_eq_ok.mp h
  · cases h
    exact hempty

/-- The responses of the last part. -/
theorem not_fromSubmission_finish {xform : SmsForm} {parsed : SmsParsed}
    (h : finishIncoming site.rt xform parsed = .ok (.inl response)) :
    ¬ FromSubmission response := by
  unfold finishIncoming at h
  dsimp only at h
  split at h
  · cases h
    rintro (h | h | ⟨h, -⟩) <;> cases h
  · split at h
    · cases h
      rintro (h | h | ⟨-, htext⟩)
      · cases h
      · cases h
      · rw [String.append_assoc, String.append_assoc] at htext
        exact @append_not_mem_of_head _ _ _ 'R' (by decide) (by decide) htext
    · obtain ⟨notes, -, h⟩ := bind_eq_ok.mp h
      cases pure_eq_ok.mp h

/-- A refused message gets none of the responses of a submission. -/
theorem not_fromSubmission_of_refused
    (h : messageResult site idString incoming = .ok (.inl response)) :
    ¬ FromSubmission response := by
  have hparsing : ∀ {text}, ¬ FromSubmission { code := .parsingError, text := text } := by
    intro text hfrom
    rcases hfrom with h | h | ⟨h, -⟩ <;> cases h
  unfold messageResult processIncoming at h
  cases hread : readIncoming site incoming idString with
  | error error =>
      rw [hread] at h
      cases error
      case valueError text =>
        cases h
        exact hparsing
      all_goals cases h
  | ok result =>
      rw [hread] at h
      cases result with
      | inl refused =>
          cases h
          exact not_fromSubmission_read hread
      | inr read =>
          obtain ⟨xform, parsed⟩ := read
          simp only at h
          cases hfinish : finishIncoming site.rt xform parsed with
          | error error =>
              rw [hfinish] at h
              cases error
              case valueError text =>
                cases h
                exact hparsing
              all_goals cases h
          | ok result =>
              rw [hfinish] at h
              cases result with
              | inl refused =>
                  cases h
                  exact not_fromSubmission_finish hfinish
              | inr prepared => cases h

end Messages

/-! ### The batch against its messages -/

section Batch
variable {Db : Type} (site : SmsSite) (backend : SmsBackend Db)

/-- No exception leaves the submissions, one after the other, and the success text of the batch
says of each that is accepted what its own says. -/
def SuccessAgrees (success : String) : Db → List (String × PreparedSms) → Prop
  | _, [] => True
  | db, (own, prepared) :: rest =>
      (∀ exception, (backend.create db prepared).2 ≠ .other exception) ∧
        (∀ uuid, (backend.create db prepared).2 = .created uuid →
          ∃ text, successText site.rt success (takeStart uuid 8) prepared.answers = .ok text ∧
            successText site.rt own (takeStart uuid 8) prepared.answers = .ok text) ∧
        SuccessAgrees success (backend.create db prepared).1 rest

/-- Two success texts that give the same response. -/
theorem submitStep_both_iff {success own : String} {db db' : Db} {prepared : PreparedSms} :
    (∃ response, SubmitStep site backend success db prepared db' response ∧
      SubmitStep site backend own db prepared db' response) ↔
      db' = (backend.create db prepared).1 ∧
        (∀ exception, (backend.create db prepared).2 ≠ .other exception) ∧
        ∀ uuid, (backend.create db prepared).2 = .created uuid →
          ∃ text, successText site.rt success (takeStart uuid 8) prepared.answers = .ok text ∧
            successText site.rt own (takeStart uuid 8) prepared.answers = .ok text := by
  unfold SubmitStep submitOne
  generalize backend.create db prepared = created
  obtain ⟨mid, outcome⟩ := created
  cases outcome
  case other exception =>
    constructor
    · rintro ⟨response, h, -⟩
      cases h
    · rintro ⟨-, hno, -⟩
      exact absurd rfl (hno exception)
  case created uuid =>
    constructor
    · rintro ⟨response, hsuccess, hown⟩
      obtain ⟨text, htext, hsuccess⟩ := bind_eq_ok.mp hsuccess
      obtain ⟨text', htext', hown⟩ := bind_eq_ok.mp hown
      have heq := pure_eq_ok.mp hsuccess
      have heq' := pure_eq_ok.mp hown
      rw [Prod.mk.injEq] at heq heq'
      have hsame := congrArg SmsResponse.text (heq.2.trans heq'.2.symm)
      obtain rfl : text = text' := hsame
      refine ⟨heq.1.symm, (fun _ h => by cases h), fun uuid' huuid => ⟨text, ?_⟩⟩
      cases huuid
      exact ⟨htext, htext'⟩
    · rintro ⟨rfl, -, htexts⟩
      obtain ⟨text, hsuccess, hown⟩ := htexts uuid rfl
      exact ⟨_, bind_eq_ok.mpr ⟨text, hsuccess, rfl⟩, bind_eq_ok.mpr ⟨text, hown, rfl⟩⟩
  all_goals
    constructor
    · rintro ⟨response, h, -⟩
      cases h
      exact ⟨rfl, (fun _ h => by cases h), fun _ h => by cases h⟩
    · rintro ⟨rfl, -, -⟩
      exact ⟨_, rfl, rfl⟩

/-- The submissions of the batch and those of the messages alone. -/
theorem outputs_both_iff (success : String) (parsed : List (String × PreparedSms)) :
    ∀ {db : Db},
      (∃ db' outs, Outputs (SubmitStep site backend success) db (parsed.map (·.2)) db' outs ∧
        Outputs (ResultStep site backend) db (parsed.map Sum.inr) db' outs) ↔
        SuccessAgrees site backend success db parsed := by
  induction parsed with
  | nil =>
      intro db
      exact iff_of_true ⟨db, [], .nil db, .nil db⟩ trivial
  | cons first parsed ih =>
      intro db
      obtain ⟨own, prepared⟩ := first
      constructor
      · rintro ⟨db', outs, hbatch, halone⟩
        obtain ⟨mid, out, rest, hstep, hrest, rfl⟩ := Outputs.cons_iff.mp hbatch
        obtain ⟨mid', out', rest', hstep', hrest', heq⟩ := Outputs.cons_iff.mp halone
        obtain ⟨rfl, rfl⟩ := List.cons.inj heq
        have hmid : mid = mid' := by
          -- Both steps lead to the database that `create_instance` leaves.
          have hdb : ∀ {success db' response},
              SubmitStep site backend success db prepared db' response →
                db' = (backend.create db prepared).1 := fun h =>
            ((submitStep_both_iff site backend).mp ⟨_, h, h⟩).1
          exact (hdb hstep).trans (hdb (show SubmitStep _ _ own _ _ _ _ from hstep')).symm
        subst hmid
        obtain ⟨hdb, hother, htexts⟩ :=
          (submitStep_both_iff site backend).mp ⟨out, hstep, hstep'⟩
        rw [hdb] at hrest hrest'
        exact ⟨hother, htexts, ih.mp ⟨db', rest, hrest, hrest'⟩⟩
      · rintro ⟨hother, htexts, hagrees⟩
        obtain ⟨db', outs, hbatch, halone⟩ := ih.mpr hagrees
        obtain ⟨response, hstep, hstep'⟩ :=
          (submitStep_both_iff site backend).mpr ⟨rfl, hother, htexts⟩
        exact ⟨db', response :: outs, .cons hstep hbatch, .cons hstep' halone⟩

/-- The results are those of refused messages, then those of parsed ones. -/
def RefusedFirst (results : List (SmsResponse ⊕ String × PreparedSms)) : Prop :=
  results = (results.filterMap Sum.getLeft?).map Sum.inl ++
    (results.filterMap Sum.getRight?).map Sum.inr

variable {site backend}

/-- Refused messages leave the database as it is. -/
theorem outputs_refused {db db' : Db} {refused outs : List SmsResponse} :
    Outputs (ResultStep site backend) db (refused.map Sum.inl) db' outs ↔
      db' = db ∧ outs = refused := by
  induction refused generalizing db outs with
  | nil => exact Outputs.nil_iff
  | cons response refused ih =>
      constructor
      · intro h
        obtain ⟨mid, out, rest, hstep, hrest, rfl⟩ := Outputs.cons_iff.mp h
        obtain ⟨rfl, rfl⟩ := hstep
        obtain ⟨rfl, rfl⟩ := ih.mp hrest
        exact ⟨rfl, rfl⟩
      · rintro ⟨rfl, rfl⟩
        exact .cons ⟨rfl, rfl⟩ (ih.mpr ⟨rfl, rfl⟩)

/-- Without refused messages the results are those of parsed ones. -/
theorem eq_map_inr {results : List (SmsResponse ⊕ String × PreparedSms)}
    (h : results.filterMap Sum.getLeft? = []) :
    results = (results.filterMap Sum.getRight?).map Sum.inr := by
  induction results with
  | nil => rfl
  | cons result results ih =>
      cases result with
      | inl response => cases h
      | inr prepared => exact congrArg (Sum.inr prepared :: ·) (ih h)

theorem refusedFirst_inl {response : SmsResponse}
    {results : List (SmsResponse ⊕ String × PreparedSms)} :
    RefusedFirst (.inl response :: results) ↔ RefusedFirst results := by
  unfold RefusedFirst
  show Sum.inl response :: results = Sum.inl response :: _ ↔ _
  rw [List.cons_inj_right]
  rfl

theorem refusedFirst_inr {prepared : String × PreparedSms}
    {results : List (SmsResponse ⊕ String × PreparedSms)} :
    RefusedFirst (.inr prepared :: results) ↔ results.filterMap Sum.getLeft? = [] := by
  unfold RefusedFirst
  show Sum.inr prepared :: results = (results.filterMap Sum.getLeft?).map Sum.inl ++
    Sum.inr prepared :: (results.filterMap Sum.getRight?).map Sum.inr ↔ _
  constructor
  · intro h
    cases hrefused : results.filterMap Sum.getLeft? with
    | nil => rfl
    | cons response rest =>
        rw [hrefused] at h
        cases (List.cons.inj h).1
  · intro h
    rw [h, List.map_nil, List.nil_append, ← eq_map_inr h]

/-- The responses can be told apart, so the messages alone give the refusals first only when
the refused messages come first. -/
theorem refusedFirst_of_outputs {results : List (SmsResponse ⊕ String × PreparedSms)}
    (hrefused : ∀ response, .inl response ∈ results → ¬ FromSubmission response) :
    ∀ {db db' : Db} {outs : List SmsResponse},
      Outputs (ResultStep site backend) db results db'
        (results.filterMap Sum.getLeft? ++ outs) → RefusedFirst results := by
  induction results with
  | nil => exact fun _ => rfl
  | cons result results ih =>
      intro db db' outs h
      obtain ⟨mid, out, rest, hstep, hrest, heq⟩ := Outputs.cons_iff.mp h
      cases result with
      | inl response =>
          obtain ⟨-, rfl⟩ := List.cons.inj heq
          refine refusedFirst_inl.mpr (ih (fun response hmem => ?_) hrest)
          exact hrefused response (List.mem_cons_of_mem _ hmem)
      | inr parsed =>
          refine refusedFirst_inr.mpr ?_
          obtain ⟨own, prepared⟩ := parsed
          have heq : results.filterMap Sum.getLeft? ++ outs = out :: rest := heq
          cases hleft : results.filterMap Sum.getLeft? with
          | nil => rfl
          | cons response others =>
              -- The first response would be that of a refused message.
              rw [hleft] at heq
              obtain ⟨rfl, -⟩ := List.cons.inj heq
              obtain ⟨result, hmem, hget⟩ := List.mem_filterMap.mp
                (show response ∈ results.filterMap Sum.getLeft? from hleft ▸ List.mem_cons_self)
              cases result with
              | inl refused =>
                  obtain rfl := Option.some_inj.mp hget
                  exact absurd (fromSubmission_of_submitStep
                    (show SubmitStep site backend own db prepared mid refused from hstep))
                    (hrefused refused (List.mem_cons_of_mem _ hmem))
              | inr parsed => cases hget

/-- Batch and messages agree, by their results. -/
theorem outputs_results_iff {results : List (SmsResponse ⊕ String × PreparedSms)}
    (hrefused : ∀ response, .inl response ∈ results → ¬ FromSubmission response)
    {success : String} {db : Db} :
    (∃ db' outs,
      Outputs (SubmitStep site backend success) db
        ((results.filterMap Sum.getRight?).map (·.2)) db' outs ∧
      Outputs (ResultStep site backend) db results db'
        (results.filterMap Sum.getLeft? ++ outs)) ↔
      RefusedFirst results ∧
        SuccessAgrees site backend success db (results.filterMap Sum.getRight?) := by
  have hsplit : RefusedFirst results → ∀ db' outs,
      (Outputs (ResultStep site backend) db results db'
        (results.filterMap Sum.getLeft? ++ outs) ↔
      Outputs (ResultStep site backend) db ((results.filterMap Sum.getRight?).map Sum.inr) db'
        outs) := by
    intro hfirst db' outs
    have hrun : ∀ all, Outputs (ResultStep site backend) db results db' all ↔
        ∃ mid first rest, Outputs (ResultStep site backend) db
            ((results.filterMap Sum.getLeft?).map Sum.inl) mid first ∧
          Outputs (ResultStep site backend) mid
            ((results.filterMap Sum.getRight?).map Sum.inr) db' rest ∧ all = first ++ rest := by
      intro all
      rw [← Outputs.append_iff, ← hfirst]
    rw [hrun]
    constructor
    · rintro ⟨mid, first, rest, hleft, hright, heq⟩
      obtain ⟨rfl, rfl⟩ := outputs_refused.mp hleft
      obtain rfl := List.append_cancel_left heq
      exact hright
    · intro hright
      exact ⟨db, _, outs, outputs_refused.mpr ⟨rfl, rfl⟩, hright, rfl⟩
  rw [← outputs_both_iff site backend]
  constructor
  · rintro ⟨db', outs, hbatch, halone⟩
    have hfirst := refusedFirst_of_outputs hrefused halone
    exact ⟨hfirst, db', outs, hbatch, (hsplit hfirst db' outs).mp halone⟩
  · rintro ⟨hfirst, db', outs, hbatch, halone⟩
    exact ⟨db', outs, hbatch, (hsplit hfirst db' outs).mpr halone⟩

variable {idString : Option String}

/-- The results of messages that let no exception escape. -/
theorem results_spec {incomings : List (List String)}
    {results : List (SmsResponse ⊕ String × PreparedSms)}
    (h : List.Forall₂ (fun incoming result => messageResult site idString incoming = .ok result)
      incomings results) :
    (∀ response, .inl response ∈ results → ¬ FromSubmission response) ∧
      parsedMessages site idString incomings = results.filterMap Sum.getRight? ∧
      (results.filterMap Sum.getLeft? = [] ↔
        ∀ incoming ∈ incomings, ¬ Refused site idString incoming) ∧
      (RefusedFirst results ↔ incomings.Pairwise fun incoming later =>
        Parsed site idString incoming → ¬ Refused site idString later) := by
  induction h with
  | nil =>
      refine ⟨fun _ hmem => absurd hmem List.not_mem_nil, rfl, iff_of_true rfl ?_, ?_⟩
      · exact fun _ hmem => absurd hmem List.not_mem_nil
      · exact iff_of_true rfl List.Pairwise.nil
  | @cons incoming result incomings results hresult _ ih =>
      obtain ⟨hrefused, hparsed, hnone, hfirst⟩ := ih
      have hmessages : parsedMessages site idString (incoming :: incomings) =
          result.getRight?.toList ++ parsedMessages site idString incomings := by
        unfold parsedMessages
        rw [List.filterMap_cons, hresult]
        cases result <;> rfl
      rw [List.forall_mem_cons, List.pairwise_cons, hmessages, hparsed]
      cases result with
      | inl response =>
          have hown : Refused site idString incoming := ⟨response, hresult⟩
          have hnot : ¬ Parsed site idString incoming := by
            rintro ⟨prepared, h⟩
            cases hresult.symm.trans h
          refine ⟨fun other hmem => ?_, rfl, ?_, ?_⟩
          · rcases List.mem_cons.mp hmem with heq | hmem
            · obtain rfl := Sum.inl.inj heq
              exact not_fromSubmission_of_refused hresult
            · exact hrefused other hmem
          · exact iff_of_false (List.cons_ne_nil _ _) fun h => h.1 hown
          · rw [refusedFirst_inl, hfirst]
            exact ⟨fun h => ⟨fun _ _ hparsed => absurd hparsed hnot, h⟩, fun h => h.2⟩
      | inr prepared =>
          have hown : Parsed site idString incoming := ⟨prepared, hresult⟩
          have hnot : ¬ Refused site idString incoming := by
            rintro ⟨response, h⟩
            cases hresult.symm.trans h
          refine ⟨fun other hmem => ?_, rfl, ?_, ?_⟩
          · rcases List.mem_cons.mp hmem with heq | hmem
            · cases heq
            · exact hrefused other hmem
          · exact hnone.trans ⟨fun h => ⟨hnot, h⟩, fun h => h.2⟩
          · rw [refusedFirst_inr, hnone]
            constructor
            · intro h
              refine ⟨fun later hlater _ => h later hlater, ?_⟩
              exact List.pairwise_of_forall_mem_list fun _ _ later hlater _ => h later hlater
            · exact fun h later hlater => h.1 later hlater hown

variable (site) (backend) (idString)

/-- The batch is processed message by message: it gives one response for each message, in their
order, and the responses and the database are those of the messages processed alone, one after
the other. -/
def ProcessedSingly (db : Db) (incomings : List (List String)) : Prop :=
  ∃ db' responses, processIncomingSmses site backend db incomings idString = .ok (db', responses) ∧
    Outputs (AloneStep site backend idString) db incomings db' responses

/-- The condition: no message lets an exception escape, no refused message comes behind a parsed
one, and the submissions succeed with the last success text as with their own. -/
structure BatchConditions (db : Db) (incomings : List (List String)) : Prop where
  caught : ∀ incoming ∈ incomings, ¬ Escapes site idString incoming
  refusedFirst : incomings.Pairwise fun incoming later =>
    Parsed site idString incoming → ¬ Refused site idString later
  success : SuccessAgrees site backend (lastSuccess site idString incomings defaultSuccess) db
    (parsedMessages site idString incomings)

end Batch

/-- A user without forms. The texts of the message below are in lower case, and hold no value. -/
def emptySite : SmsSite where
  rt := { int := fun text => .error ("invalid literal for int() with base 10: '" ++ text ++ "'")
          float := fun text => .error ("could not convert string to float: '" ++ text ++ "'")
          strptime := fun text fmt => .error ("time data '" ++ text ++ "' does not match format '" ++
            fmt ++ "'")
          dateOf := id
          b64decode := fun _ => .error "Error('Incorrect padding')"
          lower := id
          format := fun text _ => .ok text }
  forms := []
  now := "2024-01-01T00:00:00"
  today := "2024-01-01"

end Onadata.Proofs
