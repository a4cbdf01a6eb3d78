import Onadata.Libs.Utils.UploadValidation

/-!
# `Onadata.Proofs.Libs.Utils.UploadValidation`: the stream and the whole file

`validateCsvStream_iff` compares the validation of a stream with the checks of the whole file. The
chunks do not matter: `StreamState` says what the stream knows of the bytes that are read, and
`readChunk_streamState` keeps it in each round.

The rows of the head sample are only read up to the eleventh. So an error of the CSV reader after
this row is not found (`countSampleRows_eq`).
-/

set_option autoImplicit false

namespace Onadata.Proofs

open Onadata.Lib

/-! ### The rows of the sample -/

/-- The first eleven rows of the head sample are read without an error, and there is a row. -/
def HeadParses (text : List Char) : Prop :=
  let rows := csvRows (text.take CSV_HEAD_SAMPLE_CHARS)
  rows.1 ≠ [] ∧ (rows.2 = none ∨ CSV_STRUCTURE_SAMPLE_ROWS < rows.1.length)

/-- The loop counts the rows up to the eleventh, or finds an error before it. -/
theorem countSampleRows_eq {index rowCount : Nat} (hcount : rowCount = index)
    (hindex : index ≤ CSV_STRUCTURE_SAMPLE_ROWS) (lines : List (List Char)) :
    (countSampleRows index rowCount lines).toOption =
      if CSV_STRUCTURE_SAMPLE_ROWS < index + (csvRowsFrom {} lines).1.length then
        some (CSV_STRUCTURE_SAMPLE_ROWS + 1)
      else if (csvRowsFrom {} lines).2 = none then some (index + (csvRowsFrom {} lines).1.length)
      else none := by
  fun_induction countSampleRows index rowCount lines with
  | case1 index rowCount lines error h =>
      have hrows : csvRowsFrom {} lines = ([], some error) := CsvReader.csvRowsFrom_of_error h
      rw [hrows, if_neg (by simp only [List.length_nil]; omega), if_neg (by simp)]
      rfl
  | case2 index rowCount lines h =>
      have hrows : csvRowsFrom {} lines = ([], none) := CsvReader.csvRowsFrom_of_none h
      rw [hrows, if_neg (by simp only [List.length_nil]; omega), if_pos rfl]
      show some rowCount = some (index + 0)
      rw [hcount, Nat.add_zero]
  | case3 index rowCount lines row rest h hlast =>
      have hrows : csvRowsFrom {} lines = (row :: (csvRowsFrom {} rest).1, _) :=
        CsvReader.csvRowsFrom_of_some h
      rw [hrows, if_pos (by simp only [List.length_cons]; omega)]
      show some (index + 1) = some (CSV_STRUCTURE_SAMPLE_ROWS + 1)
      rw [Nat.le_antisymm hindex hlast]
  | case4 index rowCount lines row rest h hlast ih =>
      have hrows : csvRowsFrom {} lines =
          (row :: (csvRowsFrom {} rest).1, (csvRowsFrom {} rest).2) :=
        CsvReader.csvRowsFrom_of_some h
      rw [ih rfl (by omega), hrows]
      simp only [List.length_cons, Nat.add_assoc, Nat.add_comm 1]

/-- `_assert_csv_has_rows` accepts the samples with a row whose first rows are read. -/
theorem assertCsvHasRows_eq_ok {text : List Char} :
    assertCsvHasRows (text.take CSV_HEAD_SAMPLE_CHARS) = .ok () ↔ HeadParses text := by
  have hcount := countSampleRows_eq rfl (Nat.zero_le CSV_STRUCTURE_SAMPLE_ROWS)
    (stringIOLines (text.take CSV_HEAD_SAMPLE_CHARS))
  unfold assertCsvHasRows HeadParses csvRows
  generalize csvRowsFrom {} (stringIOLines (text.take CSV_HEAD_SAMPLE_CHARS)) = rows at hcount
  rw [Nat.zero_add] at hcount
  cases hresult : countSampleRows 0 0 (stringIOLines (text.take CSV_HEAD_SAMPLE_CHARS)) with
  | error error =>
      rw [hresult] at hcount
      refine iff_of_false (fun h => by cases h) ?_
      intro ⟨_, hrest⟩
      split at hcount
      · cases hcount
      · rename_i hshort
        rw [if_pos (hrest.resolve_right hshort)] at hcount
        cases hcount
  | ok rowCount =>
      rw [hresult] at hcount
      have hcount : some rowCount = _ := hcount
      show (if rowCount = 0 then Except.error UploadValidationError.noRows else .ok ()) = .ok () ↔ _
      have hlength : rows.1 ≠ [] ↔ 0 < rows.1.length := List.length_pos_iff.symm
      split at hcount
      · rename_i hlong
        rw [Option.some.inj hcount, if_neg (by omega)]
        exact iff_of_true rfl ⟨hlength.mpr (by omega), Or.inr hlong⟩
      · split at hcount
        · rename_i hnone
          rw [Option.some.inj hcount]
          by_cases hzero : rows.1.length = 0
          · rw [if_pos hzero]
            refine iff_of_false (fun h => by cases h) fun h => ?_
            have := hlength.mp h.1
            omega
          · rw [if_neg hzero]
            exact iff_of_true rfl ⟨hlength.mpr (by omega), Or.inl hnone⟩
        · cases hcount

/-! ### The stream -/

/-- What the stream knows of the bytes that are read, and of their text. -/
structure StreamState (maxBytes : Nat) (data : List UInt8) (text : List Char)
    (stream : CsvStream) : Prop where
  decoder : SigDecoder.HasRead data text stream.decoder
  head : stream.head = text.take CSV_HEAD_SAMPLE_CHARS
  headLen_lt : stream.headLen < CSV_HEAD_SAMPLE_CHARS → stream.headLen = text.length
  headLen_ge : CSV_HEAD_SAMPLE_CHARS ≤ stream.headLen → CSV_HEAD_SAMPLE_CHARS ≤ text.length
  decodedAny : stream.decodedAny = true ↔ text ≠ []
  totalBytes : stream.totalBytes = data.length
  small : data.length ≤ maxBytes
  noNul : 0 ∉ data

/-- At the start nothing is read. -/
theorem streamState_nil (maxBytes : Nat) : StreamState maxBytes [] [] {} where
  decoder := SigDecoder.hasRead_nil
  head := rfl
  headLen_lt _ := rfl
  headLen_ge h := h
  decodedAny := by decide
  totalBytes := rfl
  small := Nat.zero_le _
  noNul := List.not_mem_nil

/-- The text of a call is added. -/
theorem StreamState.accumulate {maxBytes : Nat} {data data' : List UInt8} {text text' : List Char}
    {stream : CsvStream} (h : StreamState maxBytes data text stream) {decoder : SigDecoder}
    (hdecoder : SigDecoder.HasRead data' (text ++ text') decoder) {totalBytes : Nat}
    (htotal : totalBytes = data'.length) (hsmall : data'.length ≤ maxBytes) (hnul : 0 ∉ data') :
    StreamState maxBytes data' (text ++ text')
      ({ stream with decoder := decoder, totalBytes := totalBytes }.accumulate text') := by
  unfold CsvStream.accumulate
  by_cases hnil : text' = []
  · subst hnil
    rw [if_pos rfl, List.append_nil]
    rw [List.append_nil] at hdecoder
    exact ⟨hdecoder, h.head, h.headLen_lt, h.headLen_ge, h.decodedAny, htotal, hsmall, hnul⟩
  · rw [if_neg hnil]
    have hany : true = true ↔ text ++ text' ≠ [] :=
      iff_of_true rfl fun happend => hnil (List.append_eq_nil_iff.mp happend).2
    dsimp only
    split
    · rename_i hlt
      have hlength := h.headLen_lt hlt
      refine ⟨hdecoder, ?_, fun _ => ?_, fun hge => ?_, hany, htotal, hsmall, hnul⟩
      · show stream.head ++ text'.take (CSV_HEAD_SAMPLE_CHARS - stream.headLen) = _
        rw [h.head, List.take_append, hlength]
      · show stream.headLen + text'.length = _
        rw [List.length_append, hlength]
      · have hge : CSV_HEAD_SAMPLE_CHARS ≤ stream.headLen + text'.length := hge
        rw [List.length_append, ← hlength]
        exact hge
    · rename_i hnot
      have hge := h.headLen_ge (Nat.le_of_not_lt hnot)
      refine ⟨hdecoder, ?_, fun hlt => absurd hlt hnot, fun _ => ?_, hany, htotal, hsmall, hnul⟩
      · show stream.head = _
        rw [h.head, List.take_append_of_le_length hge]
      · rw [List.length_append]
        omega

/-- A round of the loop keeps the state. -/
theorem readChunk_streamState {maxBytes : Nat} {data : List UInt8} {text : List Char}
    {stream stream' : CsvStream} (h : StreamState maxBytes data text stream) {chunk : List UInt8}
    (hround : stream.readChunk maxBytes chunk = .ok stream') :
    ∃ text', StreamState maxBytes (data ++ chunk) text' stream' := by
  unfold CsvStream.readChunk at hround
  split at hround
  · cases hround
  · rename_i hnul
    dsimp only at hround
    split at hround
    · cases hround
    · rename_i hsmall
      unfold CsvStream.decode at hround
      cases hcall : stream.decoder.decode chunk false with
      | none => simp [hcall] at hround
      | some result =>
          simp only [hcall, Except.ok.injEq] at hround
          subst hround
          have hlength : stream.totalBytes + chunk.length = (data ++ chunk).length := by
            rw [h.totalBytes, List.length_append]
          refine ⟨text ++ result.1, h.accumulate (h.decoder.decode hcall) hlength ?_ ?_⟩
          · omega
          · rw [List.mem_append, not_or]
            exact ⟨h.noNul, hnul⟩

/-- A round fails only when the whole file does. -/
theorem readChunk_error {maxBytes : Nat} {data : List UInt8} {text : List Char}
    {stream : CsvStream} (h : StreamState maxBytes data text stream) {chunk : List UInt8}
    {error : UploadValidationError} (hround : stream.readChunk maxBytes chunk = .error error)
    (more : List UInt8) :
    ¬((data ++ (chunk ++ more)).length ≤ maxBytes ∧ 0 ∉ data ++ (chunk ++ more) ∧
      ∃ text, decodeUtf8Sig (data ++ (chunk ++ more)) = some text) := by
  intro ⟨hsmall, hnul, hdecodes⟩
  unfold CsvStream.readChunk at hround
  split at hround
  · rename_i hmem
    exact hnul (List.mem_append_right _ (List.mem_append_left _ hmem))
  · dsimp only at hround
    split at hround
    · rename_i hlarge
      have hlarge : stream.totalBytes + chunk.length > maxBytes := hlarge
      rw [h.totalBytes] at hlarge
      rw [List.length_append, List.length_append] at hsmall
      omega
    · unfold CsvStream.decode at hround
      cases hcall : stream.decoder.decode chunk false with
      | none =>
          obtain ⟨whole, hwhole⟩ := hdecodes
          rw [← List.append_assoc, h.decoder.decode_eq_none hcall] at hwhole
          cases hwhole
      | some result => simp [hcall] at hround

/-- The loop over all chunks. -/
theorem readChunks_streamState {maxBytes : Nat} {data : List UInt8} {text : List Char}
    {stream : CsvStream} (h : StreamState maxBytes data text stream) {chunks : List (List UInt8)}
    (hchunks : [] ∉ chunks) :
    (∃ stream', stream.readChunks maxBytes chunks = .ok stream' ∧
      ∃ text', StreamState maxBytes (data ++ chunks.flatten) text' stream') ∨
    ((∃ error, stream.readChunks maxBytes chunks = .error error) ∧
      ¬((data ++ chunks.flatten).length ≤ maxBytes ∧ 0 ∉ data ++ chunks.flatten ∧
        ∃ text, decodeUtf8Sig (data ++ chunks.flatten) = some text)) := by
  induction chunks generalizing data text stream with
  | nil =>
      rw [List.flatten_nil, List.append_nil]
      exact Or.inl ⟨stream, rfl, text, h⟩
  | cons chunk chunks ih =>
      rw [List.mem_cons, not_or] at hchunks
      rw [CsvStream.readChunks, if_neg (Ne.symm hchunks.1), List.flatten_cons]
      cases hround : stream.readChunk maxBytes chunk with
      | error error =>
          exact Or.inr ⟨⟨error, rfl⟩, readChunk_error h hround chunks.flatten⟩
      | ok stream' =>
          obtain ⟨text', hstate⟩ := readChunk_streamState h hround
          have hrest := ih hstate hchunks.2
          rwa [List.append_assoc] at hrest

/-- An empty text has no row. -/
theorem not_headParses_nil : ¬HeadParses [] :=
  fun h => h.1 rfl

/-- The last checks. -/
def finishStream (stream : CsvStream) : Except UploadValidationError Unit := do
  let stream ← stream.decode [] true
  assertCsvHasRows stream.head
  if !stream.decodedAny then throw .empty

/-- The last checks, when the last call gives no text. -/
theorem finishStream_of_decode {maxBytes : Nat} {data : List UInt8} {text : List Char}
    {stream : CsvStream} (h : StreamState maxBytes data text stream) {decoder : SigDecoder}
    (hcall : stream.decoder.decode [] true = some ([], decoder)) :
    finishStream stream = .ok () ↔ HeadParses text := by
  have hdecode : stream.decode [] true = .ok { stream with decoder := decoder } := by
    unfold CsvStream.decode
    rw [hcall]
    rfl
  unfold finishStream
  rw [hdecode]
  show (assertCsvHasRows stream.head >>= fun _ =>
    if !stream.decodedAny then throw UploadValidationError.empty else pure ()) = .ok () ↔ _
  rw [h.head, ← assertCsvHasRows_eq_ok]
  cases hrows : assertCsvHasRows (text.take CSV_HEAD_SAMPLE_CHARS) with
  | error error => exact iff_of_false (fun h => by cases h) (fun h => by cases h)
  | ok _ =>
      -- a sample with a row is not empty
      have hany : stream.decodedAny = true := by
        refine h.decodedAny.mpr fun hnil => ?_
        rw [hnil] at hrows
        exact not_headParses_nil (assertCsvHasRows_eq_ok.mp hrows)
      rw [hany]
      exact iff_of_true rfl rfl

/-- The last checks accept a whole file that decodes and whose first rows are read. -/
theorem finishStream_iff {maxBytes : Nat} {data : List UInt8} {text : List Char}
    {stream : CsvStream} (h : StreamState maxBytes data text stream) :
    finishStream stream = .ok () ↔
      ∃ whole, decodeUtf8Sig data = some whole ∧ HeadParses whole := by
  have hread := h.decoder
  generalize hdecoder : stream.decoder = decoder at hread
  cases hread with
  | undecided hundecided htext =>
      have hundecided' : Undecided (data ++ []) := by rwa [List.append_nil]
      have hcall := decode_undecided hundecided' true
      rw [← hdecoder] at hcall
      rw [finishStream_of_decode h hcall, htext]
      refine iff_of_false not_headParses_nil ?_
      intro ⟨whole, hwhole, hparses⟩
      rw [decodeUtf8Sig_of_undecided hundecided hwhole] at hparses
      exact not_headParses_nil hparses
  | decided hdecided hfeed =>
      rename_i buffer
      have hfinal := decode_final buffer (encodeUtf8_feed .nil hfeed).2
      rw [← hdecoder] at hfinal
      rw [decodeUtf8Sig_of_feed hfeed]
      by_cases hnil : buffer = []
      · rw [if_pos hnil] at hfinal ⊢
        rw [finishStream_of_decode h hfinal]
        constructor
        · intro hparses
          exact ⟨text, rfl, hparses⟩
        · intro ⟨whole, hwhole, hparses⟩
          rwa [Option.some.inj hwhole]
      · rw [if_neg hnil] at hfinal ⊢
        refine iff_of_false ?_ fun ⟨whole, hwhole, _⟩ => by cases hwhole
        unfold finishStream CsvStream.decode
        rw [hfinal]
        intro hok
        cases hok

/-- The chunks are accepted if the whole file is. -/
theorem validateCsvStream_eq_ok {chunks : List (List UInt8)} (hchunks : [] ∉ chunks)
    (maxBytes : Nat) :
    validateCsvStream chunks maxBytes = .ok () ↔
      chunks.flatten.length ≤ maxBytes ∧ 0 ∉ chunks.flatten ∧
        ∃ text, decodeUtf8Sig chunks.flatten = some text ∧ HeadParses text := by
  have hvalidate : validateCsvStream chunks maxBytes =
      (CsvStream.readChunks maxBytes {} chunks).bind finishStream := rfl
  have hrun := readChunks_streamState (streamState_nil maxBytes) hchunks
  rw [List.nil_append] at hrun
  rw [hvalidate]
  rcases hrun with ⟨stream, hstream, text, hstate⟩ | ⟨⟨error, herror⟩, hnot⟩
  · rw [hstream]
    show finishStream stream = .ok () ↔ _
    rw [finishStream_iff hstate]
    constructor
    · intro h
      exact ⟨hstate.small, hstate.noNul, h⟩
    · intro h
      exact h.2.2
  · rw [herror]
    refine iff_of_false (fun h => by cases h) ?_
    intro ⟨hsmall, hnul, text, htext, _⟩
    exact hnot ⟨hsmall, hnul, text, htext⟩

/-- However a file is read, it is accepted exactly when the whole file is. -/
theorem validateCsvStream_iff {data : List UInt8} (reads : FileReads data) (maxBytes : Nat) :
    validateCsvStream reads.chunks maxBytes = .ok () ↔
      data.length ≤ maxBytes ∧ 0 ∉ data ∧
        ∃ text, decodeUtf8Sig data = some text ∧ HeadParses text := by
  rw [validateCsvStream_eq_ok reads.nonempty, reads.complete]

/-! ### An error after the eleventh row -/

/-- Eleven rows with a letter, and a carriage return within a field of the twelfth row. -/
def twelveRows : List Char :=
  ['a', '\n', 'a', '\n', 'a', '\n', 'a', '\n', 'a', '\n', 'a', '\n', 'a', '\n', 'a', '\n', 'a', '\n',
    'a', '\n', 'a', '\n', 'b', '\r', 'c']

/-- The bytes of the rows. -/
def twelveRowsData : List UInt8 :=
  twelveRows.map fun c => UInt8.ofNat c.toNat

/-- The file is accepted, but not all of its rows can be read. -/
theorem not_validateCsvStream_whole :
    ¬∀ (data : List UInt8) (reads : FileReads data) (maxBytes : Nat),
      validateCsvStream reads.chunks maxBytes = .ok () ↔
        data.length ≤ maxBytes ∧ 0 ∉ data ∧ ∃ text, decodeUtf8Sig data = some text ∧
          (csvRows (text.take CSV_HEAD_SAMPLE_CHARS)).1 ≠ [] ∧
            (csvRows (text.take CSV_HEAD_SAMPLE_CHARS)).2 = none := by
  intro h
  have hdecode : decodeUtf8Sig twelveRowsData = some twelveRows := by
    have hfeed : feed [] (stripBom twelveRowsData) = some (twelveRows, []) := by decide +kernel
    rw [decodeUtf8Sig_of_feed hfeed, if_pos rfl]
  have hlength : (csvRows (twelveRows.take CSV_HEAD_SAMPLE_CHARS)).1.length = 11 := by
    decide +kernel
  have herror : (csvRows (twelveRows.take CSV_HEAD_SAMPLE_CHARS)).2 =
      some .newLineInUnquotedField := by decide +kernel
  have haccepted : validateCsvStream [twelveRowsData] 100 = .ok () := by
    rw [validateCsvStream_eq_ok (by decide)]
    show twelveRowsData.length ≤ 100 ∧ 0 ∉ twelveRowsData ∧
      ∃ text, decodeUtf8Sig twelveRowsData = some text ∧ HeadParses text
    refine ⟨by decide, by decide, twelveRows, hdecode, ?_, Or.inr ?_⟩
    · intro hnil
      rw [hnil] at hlength
      cases hlength
    · rw [hlength]
      decide
  have hiff := h twelveRowsData ⟨[twelveRowsData], by decide, by decide⟩ 100
  obtain ⟨_, _, text, htext, _, hnone⟩ := hiff.mp haccepted
  rw [hdecode] at htext
  obtain rfl := Option.some.inj htext
  rw [herror] at hnone
  cases hnone

end Onadata.Proofs
