import Mathlib.Data.List.TakeWhile
import Onadata.Proofs.Libs.Utils.ContinuedSegments

/-!
# `Onadata.Proofs.Libs.Utils.ContinuedFilename`: file names that are put together

`parse_filename` decodes each parameter whose name ends with a star as if it had a charset and a
language of its own, which only the first segment has. So a percent-encoded segment behind the
first is an error (`decode_later`). `combine` puts the plain segments behind the first together, up
to the number 99998 (`combineFrom_items`).

`readsWhole_iff` says which file names are read back.
-/

set_option autoImplicit false

namespace Onadata.Proofs

open Onadata.Lib
open ReaderState

/-! ### The names of the parameters -/

/-- The name of the parameter of a segment. -/
def segmentKey (idx : Nat) (extended : Bool) : String :=
  if extended then s!"filename*{idx}*" else s!"filename*{idx}"

/-- The star after the number. -/
def starOf (extended : Bool) : List Char :=
  if extended then ['*'] else []

theorem toList_segmentKey (idx : Nat) (extended : Bool) :
    (segmentKey idx extended).toList =
      "filename*".toList ++ ((toString idx).toList ++ starOf extended) := by
  cases extended with
  | false =>
      show (toString "filename*" ++ toString idx).toList = _
      rw [String.toList_append, starOf, if_neg Bool.false_ne_true, List.append_nil]
      rfl
  | true =>
      show (toString "filename*" ++ toString idx ++ toString "*").toList = _
      rw [String.toList_append, String.toList_append, List.append_assoc]
      rfl

/-- A name says the number of the segment, and whether it is extended. -/
theorem segmentKey_injective {i j : Nat} {extended extended' : Bool}
    (h : segmentKey i extended = segmentKey j extended') : i = j ∧ extended = extended' := by
  have hchars := congrArg String.toList h
  rw [toList_segmentKey, toList_segmentKey] at hchars
  have htail := List.append_cancel_left hchars
  cases extended with
  | false =>
      cases extended' with
      | false => exact ⟨number_injective (by simpa [starOf] using htail), rfl⟩
      | true =>
          refine absurd ?_ (@notMem_number '*' (by decide) i)
          have hmem : '*' ∈ (toString j).toList ++ starOf true :=
            List.mem_append_right _ (List.mem_singleton_self _)
          rw [← htail] at hmem
          simpa [starOf] using hmem
  | true =>
      cases extended' with
      | false =>
          refine absurd ?_ (@notMem_number '*' (by decide) j)
          have hmem : '*' ∈ (toString i).toList ++ starOf true :=
            List.mem_append_right _ (List.mem_singleton_self _)
          rw [htail] at hmem
          simpa [starOf] using hmem
      | true => exact ⟨number_injective (List.append_cancel_right htail), rfl⟩

theorem param_name (segment : Segment) (idx : Nat) :
    (segment.param idx).name = segmentKey idx segment.extended := by
  have hkey : "filename*".toList = ['f', 'i', 'l', 'e', 'n', 'a', 'm', 'e'] ++ ['*'] := by
    rfl
  have hstar : (starOf segment.extended).map Char.toLower = starOf segment.extended := by
    cases segment.extended with
    | false => rfl
    | true => decide
  rw [← String.toList_inj, toList_segmentKey]
  show (String.ofList ((segment.key ++ '*' :: ((toString idx).toList ++
    starOf segment.extended)).map Char.toLower)).toList = _
  rw [String.toList_ofList, List.map_append, segment.key_eq, List.map_cons, List.map_append,
    map_toLower_number, hstar, hkey, List.append_assoc]
  rfl

/-! ### The values -/

/-- A quoted segment is read as it is. -/
theorem decode_quoted {segment : Segment} (h : segment.extended = false) (idx : Nat) :
    (segment.param idx).decode = .ok (String.ofList segment.text) := by
  unfold HeaderParam.decode Segment.param paramOf
  simp [h]

/-- An extended segment is decoded like an extended value. -/
theorem decode_extended {segment : Segment} (h : segment.extended = true) (idx : Nat) :
    (segment.param idx).decode = decodeExtValue (String.ofList segment.written) := by
  have hends : endsWith (segment.param idx).name "*" = true := by
    rw [param_name, h]
    have hkey : segmentKey idx true = (toString "filename*" ++ toString idx) ++ "*" := rfl
    rw [hkey, endsWith_append]
  have hquoted : (segment.param idx).isQuoted = false := by
    show (!segment.extended) = false
    rw [h]
    rfl
  have hvalue : (segment.param idx).value = String.ofList segment.written := by
    show String.ofList (if segment.extended then segment.written else segment.text) = _
    rw [h, if_pos rfl]
  unfold HeaderParam.decode
  rw [hends, hquoted, hvalue]
  rfl

/-- The characters before a mark, and from it on. -/
theorem takeWhile_append_mark {part : List Char} (h : ∀ c ∈ part, c ≠ '\'') (rest : List Char) :
    (part ++ '\'' :: rest).takeWhile (fun c => !(c == '\'')) = part ∧
      (part ++ '\'' :: rest).dropWhile (fun c => !(c == '\'')) = '\'' :: rest := by
  have hall : ∀ c ∈ part, (!(c == '\'')) = true := by
    intro c hc
    simpa using h c hc
  have htake : ('\'' :: rest).takeWhile (fun c => !(c == '\'')) = [] := rfl
  rw [List.takeWhile_append_of_pos hall, List.dropWhile_append_of_pos hall, htake,
    List.append_nil]
  exact ⟨rfl, rfl⟩

/-- The first segment is decoded. -/
theorem decode_initial {segment : Segment} (h : segment.extended = true)
    (hwrites : Writes 0 segment.extended segment.text segment.written) :
    (segment.param 0).decode = .ok (String.ofList segment.text) := by
  rw [decode_extended h]
  rw [h] at hwrites
  generalize segment.written = written at hwrites
  cases hwrites with
  | @initial charset language _ encoded hcharset hlanguage hencoded =>
      have hfirst := takeWhile_append_mark (fun c hc => (isTokenChar_of_charset hcharset c hc).2)
        (language ++ '\'' :: encoded)
      have hsecond := takeWhile_append_mark
        (fun c hc => (isTokenChar_of_language hlanguage c hc).2) encoded
      have hsplit : splitExtValue (charset ++ '\'' :: (language ++ '\'' :: encoded)) =
          some (charset, language, encoded) := by
        unfold splitExtValue
        simp only [hfirst.1, hfirst.2, hsecond.1, hsecond.2]
      have hne : charset ≠ [] := by
        rintro rfl
        revert hcharset
        decide
      have hname : (if charset = [] then "utf-8" else
          String.ofList (charset.map Char.toLower)) = "utf-8" := by
        rw [if_neg hne, hcharset, String.ofList_toList]
      have hbytes := unquoteBytes_of_percentEncodes (fun c => isAttrChar_ascii) hencoded
      unfold decodeExtValue
      rw [String.toList_ofList, hsplit]
      simp only [hname, if_true, hbytes, decodeUtf8_encodeUtf8]

/-- A percent-encoded segment behind the first has no charset, and is an error. -/
theorem decode_later {segment : Segment} (h : segment.extended = true) {idx : Nat}
    (hidx : idx ≠ 0) (hwrites : Writes idx segment.extended segment.text segment.written) :
    (segment.param idx).decode = .error .malformedExtended := by
  rw [decode_extended h]
  rw [h] at hwrites
  generalize segment.written = written at hwrites
  cases hwrites with
  | initial => exact absurd rfl hidx
  | later hencoded =>
      have hnone : written.dropWhile (fun c => !(c == '\'')) = [] := by
        rw [List.dropWhile_eq_nil_iff]
        intro c hc
        simpa using (isTokenChar_of_percentEncodes hencoded c hc).2
      have hsplit : splitExtValue written = none := by
        unfold splitExtValue
        simp only [hnone]
      unfold decodeExtValue
      rw [String.toList_ofList, hsplit]

/-- Something is written for a quoted segment and for the first one. -/
theorem written_ne {segment : Segment} {idx : Nat}
    (hwrites : Writes idx segment.extended segment.text segment.written)
    (h : idx = 0 ∨ segment.extended = false) : segment.written ≠ [] := by
  intro hnil
  rw [hnil] at hwrites
  generalize hextended : segment.extended = extended at hwrites h
  generalize hwritten : ([] : List Char) = written at hwrites
  cases hwrites with
  | quoted => cases hwritten
  | initial =>
      have hlength := congrArg List.length hwritten
      rw [List.length_append, List.length_cons, List.length_nil] at hlength
      omega
  | later =>
      rcases h with h | h
      · cases h
      · cases h

/-! ### The decoded parameters -/

namespace ContinuedHeader
variable (continued : ContinuedHeader)

/-- Only the first segment is extended, if any. -/
def LaterQuoted : Prop :=
  ∀ sent ∈ continued.segments.zipIdx, sent.2 = 0 ∨ sent.1.extended = false

/-- The decoded parameters of segments that are all decoded. -/
def items : List (String × String) :=
  continued.sent.map fun sent =>
    (segmentKey sent.2 sent.1.extended, String.ofList sent.1.text)

variable {continued}

theorem mem_sent_iff {segment : Segment} {idx : Nat} :
    (segment, idx) ∈ continued.sent ↔ continued.segments[idx]? = some segment := by
  rw [continued.sent_perm.mem_iff, List.mem_zipIdx_iff_getElem?]

theorem sent_writes {sent : Segment × Nat} (h : sent ∈ continued.sent) :
    Writes sent.2 sent.1.extended sent.1.text sent.1.written :=
  continued.writes sent (continued.sent_perm.mem_iff.mp h)

/-- The names of the parameters are distinct. -/
theorem nodup_items : (Dict.keys continued.items).Nodup := by
  have hnumbers : (continued.sent.map Prod.snd).Nodup := by
    rw [(continued.sent_perm.map Prod.snd).nodup_iff, List.zipIdx_map_snd]
    exact List.nodup_range'
  have hkeys : Dict.keys continued.items =
      continued.sent.map fun sent => segmentKey sent.2 sent.1.extended := by
    rw [items, Dict.keys, List.map_map]
    rfl
  rw [hkeys]
  unfold List.Nodup at hnumbers ⊢
  rw [List.pairwise_map] at hnumbers ⊢
  exact hnumbers.imp fun hne heq => hne (segmentKey_injective heq).1

/-- The value of a segment. -/
theorem get?_items {segment : Segment} {idx : Nat}
    (h : continued.segments[idx]? = some segment) :
    Dict.get? continued.items (segmentKey idx segment.extended) =
      some (String.ofList segment.text) := by
  have hmem : (segmentKey idx segment.extended, String.ofList segment.text) ∈ continued.items :=
    List.mem_map.mpr ⟨(segment, idx), mem_sent_iff.mpr h, rfl⟩
  exact Dict.get?_of_mem nodup_items hmem

/-- A key that is the name of no segment has no value. -/
theorem get?_items_of_ne {key : String}
    (h : ∀ idx segment, continued.segments[idx]? = some segment →
      segmentKey idx segment.extended ≠ key) : Dict.get? continued.items key = none := by
  rw [Dict.get?_eq_none]
  intro hmem
  obtain ⟨item, hitem, rfl⟩ := List.mem_map.mp hmem
  obtain ⟨⟨segment, idx⟩, hsent, rfl⟩ := List.mem_map.mp hitem
  exact h idx segment (mem_sent_iff.mp hsent) rfl

/-- A number and a star that are not those of a segment. -/
theorem get?_items_other {idx : Nat} {extended : Bool}
    (h : ∀ segment, continued.segments[idx]? = some segment → segment.extended ≠ extended) :
    Dict.get? continued.items (segmentKey idx extended) = none := by
  refine get?_items_of_ne fun idx' segment hsegment heq => ?_
  obtain ⟨rfl, hextended⟩ := segmentKey_injective heq
  exact h segment hsegment hextended

/-- `combine` puts the next segments together, as many as its range has numbers. -/
theorem combineFrom_items (hlater : continued.LaterQuoted) {idx : Nat} (hidx : idx ≠ 0)
    (filename : String) (count : Nat) :
    combineFrom continued.items idx filename count = filename ++
      String.ofList (((continued.segments.drop idx).take count).flatMap Segment.text) := by
  induction count generalizing idx filename with
  | zero =>
      rw [combineFrom, List.take_zero, List.flatMap_nil]
      simp
  | succ count ih =>
      have hfound : [s!"filename*{idx}*", s!"filename*{idx}"].findSome?
          (Dict.get? continued.items) = (continued.segments[idx]?).map
            fun segment => String.ofList segment.text := by
        show [segmentKey idx true, segmentKey idx false].findSome? (Dict.get? continued.items) = _
        cases hsegment : continued.segments[idx]? with
        | none =>
            have hnone : ∀ extended,
                Dict.get? continued.items (segmentKey idx extended) = none := by
              intro extended
              refine get?_items_other fun segment h => ?_
              rw [hsegment] at h
              cases h
            simp [hnone]
        | some segment =>
            have hquoted : segment.extended = false := by
              have hmem : (segment, idx) ∈ continued.segments.zipIdx :=
                List.mem_zipIdx_iff_getElem?.mpr hsegment
              exact (hlater _ hmem).resolve_left hidx
            have hstar : Dict.get? continued.items (segmentKey idx true) = none := by
              refine get?_items_other fun other h => ?_
              rw [hsegment] at h
              rw [← Option.some.inj h, hquoted]
              exact Bool.false_ne_true
            have hplain := get?_items hsegment
            rw [hquoted] at hplain
            simp [hstar, hplain]
      rw [combineFrom]
      simp only [hfound]
      cases hsegment : continued.segments[idx]? with
      | none =>
          have hdrop : continued.segments.drop idx = [] :=
            List.drop_eq_nil_of_le (List.getElem?_eq_none_iff.mp hsegment)
          rw [hdrop, List.take_nil, List.flatMap_nil]
          simp
      | some segment =>
          have hdrop : continued.segments.drop idx =
              segment :: continued.segments.drop (idx + 1) := by
            obtain ⟨hlt, hget⟩ := List.getElem?_eq_some_iff.mp hsegment
            rw [List.drop_eq_getElem_cons hlt, hget]
          rw [hdrop, List.take_succ_cons, List.flatMap_cons, String.ofList_append,
            ← String.append_assoc]
          exact ih (by omega) _

/-- The pieces of the name that `combine` reaches. -/
def reached (continued : ContinuedHeader) : List Char :=
  (continued.segments.take 99999).flatMap Segment.text

/-- The file name of the decoded parameters, unless the first piece is empty. -/
theorem firstFilename_items (hlater : continued.LaterQuoted) {first : Segment}
    (hfirst : continued.segments[0]? = some first) :
    firstFilename continued.items =
      if first.text = [] then none else some (secureFilename (String.ofList continued.reached)) := by
  have hkey : ∀ key, (key = "filename*" ∨ key = "filename") →
      filenameOf continued.items key = none := by
    intro key hkey
    have hnone : Dict.get? continued.items key = none := by
      refine get?_items_of_ne fun idx segment _ heq => ?_
      have hlength := congrArg (fun text => text.toList.length) heq
      have hpos := length_toString_pos idx
      rw [← String.length_toList] at hpos
      have hstar : "filename*".toList.length = 9 := by rfl
      have hplain : "filename".toList.length = 8 := by rfl
      simp only [toList_segmentKey, List.length_append] at hlength
      rcases hkey with rfl | rfl
      · omega
      · omega
    unfold filenameOf
    rw [hnone]
  -- the key that the first segment does not have
  have hother : filenameOf continued.items (segmentKey 0 !first.extended) = none := by
    have hnone : Dict.get? continued.items (segmentKey 0 !first.extended) = none := by
      refine get?_items_other fun segment h => ?_
      rw [hfirst] at h
      rw [← Option.some.inj h]
      cases first.extended with
      | false => decide
      | true => decide
    unfold filenameOf
    rw [hnone]
  have hown : filenameOf continued.items (segmentKey 0 first.extended) =
      if first.text = [] then none else some (secureFilename (String.ofList continued.reached)) := by
    have hstart : startsWith (segmentKey 0 first.extended) "filename*0" = true := by
      cases first.extended with
      | false => rfl
      | true => rfl
    have hcombine : Onadata.combine continued.items (String.ofList first.text) =
        String.ofList continued.reached := by
      obtain ⟨rest, hrest⟩ : ∃ rest, continued.segments = first :: rest := by
        cases hsegments : continued.segments with
        | nil =>
            rw [hsegments] at hfirst
            cases hfirst
        | cons segment rest =>
            rw [hsegments] at hfirst
            exact ⟨rest, by rw [Option.some.inj hfirst]⟩
      unfold Onadata.combine
      rw [combineFrom_items hlater (by omega), reached, hrest]
      show _ = String.ofList ((first :: rest.take 99998).flatMap Segment.text)
      rw [List.flatMap_cons, String.ofList_append]
      rfl
    unfold filenameOf
    rw [get?_items hfirst]
    simp only [String.ofList_eq_empty_iff]
    by_cases hempty : first.text = []
    · rw [if_pos hempty, if_pos hempty]
    · have hne : String.ofList continued.reached ≠ "" := by
        rw [← hcombine]
        unfold Onadata.combine
        rw [combineFrom_items hlater (by omega), ne_eq, String.append_eq_empty_iff,
          String.ofList_eq_empty_iff]
        exact fun h => hempty h.1
      rw [if_neg hempty, if_neg hempty, hstart, if_pos rfl, hcombine, if_neg hne]
  have hkeys : ["filename*", "filename", "filename*0*", "filename*0"] =
      ["filename*", "filename", segmentKey 0 true, segmentKey 0 false] := by rfl
  have hfound : ∀ value, filenameOf continued.items (segmentKey 0 first.extended) = value →
      [segmentKey 0 true, segmentKey 0 false].findSome? (filenameOf continued.items) = value := by
    intro value hvalue
    cases hextended : first.extended with
    | false =>
        rw [hextended] at hother hvalue
        rw [Bool.not_false] at hother
        rw [List.findSome?_cons, hother, List.findSome?_cons, hvalue]
        cases value <;> rfl
    | true =>
        rw [hextended] at hother hvalue
        rw [Bool.not_true] at hother
        rw [List.findSome?_cons, hvalue, List.findSome?_cons, hother]
        cases value <;> rfl
  unfold firstFilename
  rw [hkeys, List.findSome?_cons, hkey "filename*" (Or.inl rfl), List.findSome?_cons,
    hkey "filename" (Or.inr rfl)]
  exact hfound _ hown

/-! ### The header -/

/-- The parameters of the header, by the automaton. -/
theorem scanParams_header (continued : ContinuedHeader) :
    (scanParams continued.header).toOption =
      ((afterValue []).read (sentChars continued.sent)).finish := by
  obtain ⟨c, rest, htype⟩ := List.exists_cons_of_ne_nil continued.type_ne
  have hall : ∀ c ∈ continued.dispositionType, isTokenChar c = true :=
    List.all_eq_true.mp continued.type_token
  have hskip : skipWhitespace (continued.dispositionType ++ sentChars continued.sent) =
      continued.dispositionType ++ sentChars continued.sent := by
    have hc := not_isBlank_of_isTokenChar (hall c (by rw [htype]; exact List.mem_cons_self))
    unfold skipWhitespace
    rw [htype, List.cons_append, List.dropWhile_cons_of_neg (by simp [hc])]
  -- the segments follow the type
  have hends := endsToken_sentChars continued.sent
  have htoken : matchToken (continued.dispositionType ++ sentChars continued.sent) =
      some (continued.dispositionType, sentChars continued.sent) := by
    cases hsent : sentChars continued.sent with
    | nil =>
        rw [List.append_nil, matchToken, List.takeWhile_eq_self_iff.mpr hall,
          List.dropWhile_eq_nil_iff.mpr hall, if_neg continued.type_ne]
    | cons d rest =>
        exact matchToken_append continued.type_ne continued.type_token
          (hends d (by rw [hsent]; rfl)) rest
  rw [scanParams, header, String.toList_ofList, hskip, htoken]
  have hloop := finish_read_scanLoop
    (String.ofList (continued.dispositionType ++ sentChars continued.sent)).length
    (sentChars continued.sent) []
  rw [hloop]
  simp

/-- Segments behind the first that are all quoted are decoded. -/
theorem decodeParams_sent (hlater : continued.LaterQuoted) :
    decodeParams [] (continued.sent.map fun sent => sent.1.param sent.2) =
      .ok continued.items := by
  have hnodup : (Dict.keys ([] : List (String × String))).Nodup := List.nodup_nil
  refine (decodeParams_eq_ok hnodup).mpr ⟨continued.items, ?_, nodup_items, rfl⟩
  rw [items, List.forall₂_map_left_iff, List.forall₂_map_right_iff, List.forall₂_same]
  intro sent hsent
  refine ⟨(param_name sent.1 sent.2).symm, ?_⟩
  cases hextended : sent.1.extended with
  | false => exact decode_quoted hextended sent.2
  | true =>
      have hzero : sent.2 = 0 := by
        rcases hlater sent (continued.sent_perm.mem_iff.mp hsent) with hzero | hquoted
        · exact hzero
        · rw [hquoted] at hextended
          cases hextended
      have hwrites := sent_writes hsent
      rw [hzero] at hwrites ⊢
      exact decode_initial hextended hwrites

/-- The file name that is read, when the segments behind the first are all quoted. -/
theorem parseFilename_of_laterQuoted (hlater : continued.LaterQuoted) {first : Segment}
    (hfirst : continued.segments[0]? = some first) :
    parseFilename continued.header = .ok (if first.text = [] then none
      else some (secureFilename (String.ofList continued.reached))) := by
  rw [parseFilename_eq_ok]
  have hne : ∀ sent ∈ continued.sent, sent.1.written ≠ [] := by
    intro sent hsent
    exact written_ne (sent_writes hsent) (hlater sent (continued.sent_perm.mem_iff.mp hsent))
  have hscan := finish_read_sent (fun sent hsent => sent_writes hsent) hne []
  rw [List.nil_append] at hscan
  refine ⟨_, _, (scanParams_header continued).trans hscan, decodeParams_sent hlater, ?_⟩
  exact firstFilename_items hlater hfirst

/-- With a percent-encoded segment behind the first, the header is an error. -/
theorem parseFilename_ne_ok (hlater : ¬continued.LaterQuoted) (filename : Option String) :
    parseFilename continued.header ≠ .ok filename := by
  intro hparse
  obtain ⟨params, decoded, hscan, hdecoded, -⟩ := parseFilename_eq_ok.mp hparse
  rw [scanParams_header] at hscan
  obtain ⟨sent, hsent, hidx, hextended⟩ : ∃ sent ∈ continued.sent, sent.2 ≠ 0 ∧
      sent.1.extended = true := by
    simpa [LaterQuoted, continued.sent_perm.mem_iff] using hlater
  by_cases hempty : ∃ sent ∈ continued.sent, sent.1.written = []
  · rw [finish_read_sent_empty (fun sent hsent => sent_writes hsent) hempty] at hscan
    cases hscan
  · have hne : ∀ sent ∈ continued.sent, sent.1.written ≠ [] :=
      fun sent hsent hnil => hempty ⟨sent, hsent, hnil⟩
    rw [finish_read_sent (fun sent hsent => sent_writes hsent) hne, List.nil_append] at hscan
    have hnodup : (Dict.keys ([] : List (String × String))).Nodup := List.nodup_nil
    obtain ⟨items, hitems, -, -⟩ := (decodeParams_eq_ok hnodup).mp hdecoded
    rw [← Option.some.inj hscan] at hitems
    -- its parameter has no value
    obtain ⟨item, -, hitem⟩ := exists_of_mem_left hitems (List.mem_map_of_mem hsent)
    have hvalue := hitem.2
    rw [decode_later hextended hidx (sent_writes hsent)] at hvalue
    cases hvalue

/-- Only the first segment is extended when none behind it is. -/
theorem laterQuoted_iff :
    continued.LaterQuoted ↔ ∀ segment ∈ continued.segments.drop 1, segment.extended = false := by
  constructor
  · intro hlater segment hsegment
    obtain ⟨idx, hidx⟩ := List.mem_iff_getElem?.mp hsegment
    rw [List.getElem?_drop] at hidx
    have hmem : (segment, 1 + idx) ∈ continued.segments.zipIdx :=
      List.mem_zipIdx_iff_getElem?.mpr hidx
    exact (hlater _ hmem).resolve_left (by show 1 + idx ≠ 0; omega)
  · rintro hquoted ⟨segment, idx⟩ hsent
    cases idx with
    | zero => exact Or.inl rfl
    | succ idx =>
        refine Or.inr (hquoted segment (List.mem_iff_getElem?.mpr ⟨idx, ?_⟩))
        rw [List.getElem?_drop, Nat.add_comm]
        exact List.mem_zipIdx_iff_getElem?.mp hsent

/-- The pieces that `combine` reaches are the whole name when no text is left behind them. -/
theorem secureFilename_reached_iff (continued : ContinuedHeader) :
    secureFilename (String.ofList continued.reached) = secureFilename continued.filename ↔
      ∀ segment ∈ continued.segments.drop 99999, segment.text = [] := by
  have hname : continued.segments.flatMap Segment.text =
      continued.reached ++ (continued.segments.drop 99999).flatMap Segment.text := by
    rw [reached, ← List.flatMap_append, List.take_append_drop]
  have hleft : (continued.segments.drop 99999).flatMap Segment.text = [] ↔
      ∀ segment ∈ continued.segments.drop 99999, segment.text = [] :=
    List.flatMap_eq_nil_iff
  rw [← hleft, filename, hname]
  constructor
  · intro hsecure
    -- the two names have the same length
    have hlength := length_eq_of_secureFilename hsecure
    rw [String.toList_ofList, String.toList_ofList, List.length_append] at hlength
    exact List.length_eq_zero_iff.mp (by omega)
  · intro hnil
    rw [hnil, List.append_nil]

/-- The whole file name is read. -/
def ReadsWhole (continued : ContinuedHeader) : Prop :=
  parseFilename continued.header = .ok (some (secureFilename continued.filename))

/-- The file name is read back, in any order of its segments, exactly when no segment behind the
first is percent-encoded, the first piece is not empty, and the pieces from number 99999 on are. -/
theorem readsWhole_iff (continued : ContinuedHeader) :
    continued.ReadsWhole ↔
      (∀ segment ∈ continued.segments.drop 1, segment.extended = false) ∧
        (∀ segment ∈ continued.segments.head?, segment.text ≠ []) ∧
          ∀ segment ∈ continued.segments.drop 99999, segment.text = [] := by
  obtain ⟨first, hfirst⟩ : ∃ first, continued.segments[0]? = some first := by
    have hlt : 0 < continued.segments.length := by
      have := continued.two_le
      omega
    exact ⟨_, List.getElem?_eq_getElem hlt⟩
  have hhead : (∀ segment ∈ continued.segments.head?, segment.text ≠ []) ↔ first.text ≠ [] := by
    rw [List.head?_eq_getElem?, hfirst]
    simp
  rw [← laterQuoted_iff, hhead, ← secureFilename_reached_iff]
  by_cases hlater : continued.LaterQuoted
  · rw [ReadsWhole, parseFilename_of_laterQuoted hlater hfirst]
    by_cases hempty : first.text = []
    · simp [hempty]
    · simp [hlater, hempty]
  · constructor
    · intro hread
      exact absurd hread (parseFilename_ne_ok hlater _)
    · intro h
      exact absurd h.1 hlater

end ContinuedHeader

/-- Characters that are kept. -/
theorem percentEncodes_self {text : List Char} (h : ∀ c ∈ text, isAttrChar c = true) :
    PercentEncodes isAttrChar text text := by
  induction text with
  | nil => exact .nil
  | cons c text ih =>
      exact .kept (h c List.mem_cons_self) (ih fun d hd => h d (List.mem_cons_of_mem c hd))

/-- The segment `filename*0*=UTF-8''foo`. -/
def firstEncoded : Segment where
  text := ['f', 'o', 'o']
  extended := true
  written := ['U', 'T', 'F', '-', '8'] ++ '\'' :: ([] ++ '\'' :: ['f', 'o', 'o'])

/-- The segment `filename*1*=bar`. -/
def secondEncoded : Segment where
  text := ['b', 'a', 'r']
  extended := true
  written := ['b', 'a', 'r']

/-- `foobar`, cut into two percent-encoded segments. -/
def twoEncoded : ContinuedHeader where
  dispositionType := ['a', 't', 't', 'a', 'c', 'h', 'm', 'e', 'n', 't']
  segments := [firstEncoded, secondEncoded]
  sent := [(firstEncoded, 0), (secondEncoded, 1)]
  two_le := by decide
  type_ne := by decide
  type_token := by rfl
  sent_perm := List.Perm.refl _
  writes := by
    intro sent hsent
    simp only [List.zipIdx_cons, List.zipIdx_nil, List.mem_cons, List.not_mem_nil, or_false]
      at hsent
    rcases hsent with rfl | rfl
    · exact .initial (by rfl) (by simp) (percentEncodes_self (List.all_eq_true.mp (by decide +kernel)))
    · exact .later (percentEncodes_self (List.all_eq_true.mp (by rfl)))

/-- A name in two percent-encoded segments is not read: the second is taken for an extended value
without a charset. -/
theorem not_readsWhole_twoEncoded :
    twoEncoded.header = "attachment; filename*0*=UTF-8''foo; filename*1*=bar" ∧
      twoEncoded.filename = "foobar" ∧ ¬twoEncoded.ReadsWhole := by
  refine ⟨by rfl, by decide +kernel, ?_⟩
  refine ContinuedHeader.parseFilename_ne_ok ?_ _
  rw [ContinuedHeader.laterQuoted_iff]
  intro hquoted
  exact absurd (hquoted secondEncoded (by simp [twoEncoded])) (by decide)

end Onadata.Proofs
