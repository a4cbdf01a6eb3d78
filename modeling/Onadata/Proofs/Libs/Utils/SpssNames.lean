import Mathlib.Data.List.Induction
import Mathlib.Data.List.Nodup
import Onadata.Libs.Utils.ExportNames

/-!
# `Onadata.Proofs.Libs.Utils.SpssNames`: SPSS variable names are valid and distinct

`_get_var_name` looks for a name among the earlier ones before it puts an `@` in front of an
underscore. So a name with an underscore is never found, can get 65 characters, and can be the
name of an earlier title.

`FitsSpss` is what a title has to be at its turn: something is left of it, and if that starts with
an underscore, the `@` has room and makes a new name.

* `validNames_append_iff`: one more title keeps the names valid exactly when it fits.
* `validNames_getVarNames_iff`: the names of all titles are valid exactly when each of them fits.
-/

set_option autoImplicit false

namespace Onadata.Proofs

open Onadata.Lib

/-- A valid variable name. -/
structure IsSpssName (name : String) : Prop where
  length_le : name.length ≤ 64
  start : ∃ c, name.toList.head? = some c ∧ c ≠ '_'
  chars : ∀ c ∈ name.toList, isSpssChar c = true

/-- Valid names that are different without regard to case. -/
structure ValidNames (names : List String) : Prop where
  valid : ∀ name ∈ names, IsSpssName name
  distinct : (names.map lower).Nodup

/-- The start of a title of which the name is made. -/
def baseOf (title : String) : String :=
  truncateColumn (cleanTitle title)

/-- A title of which a valid new name is made. -/
def FitsSpss (names : List String) (title : String) : Prop :=
  baseOf title ≠ "" ∧
    (startsWith (baseOf title) "_" = true →
      (baseOf title).length < 64 ∧ lower ("@" ++ baseOf title) ∉ names.map lower)

/-- A suffix that is appended makes a new name. -/
def FreshPart (names : List String) (title : String × UuidPart) : Prop :=
  lower (baseOf title.1) ∈ names.map lower →
    lower (varNameOf title.2 title.1 names) ∉ names.map lower

/-! ### The base -/

theorem chars_cleanTitle (title : String) : ∀ c ∈ (cleanTitle title).toList, isSpssChar c = true := by
  intro c hc
  unfold cleanTitle at hc
  rw [String.toList_ofList] at hc
  obtain ⟨d, _, rfl⟩ := List.mem_map.mp hc
  split
  · assumption
  · decide

theorem length_truncateColumn_le (column : String) : (truncateColumn column).length ≤ 64 := by
  rw [truncateColumn]
  split
  · rw [length_dropEnd]
    omega
  · omega

theorem toList_dropEnd (text : String) (n : Nat) :
    (dropEnd text n).toList = text.toList.take (text.length - n) := by
  rw [dropEnd, String.toList_ofList]

theorem toList_truncateColumn (column : String) :
    (truncateColumn column).toList = column.toList.take 64 := by
  rw [truncateColumn]
  split
  · rw [toList_dropEnd]
    congr 1
    omega
  · rw [List.take_of_length_le]
    rw [String.length_toList]
    omega

theorem chars_baseOf (title : String) : ∀ c ∈ (baseOf title).toList, isSpssChar c = true := by
  intro c hc
  rw [baseOf, toList_truncateColumn] at hc
  exact chars_cleanTitle title c (List.mem_of_mem_take hc)

/-- A text that starts with an underscore. -/
theorem startsWith_underscore_iff (text : String) :
    startsWith text "_" = true ↔ text.toList.head? = some '_' := by
  have hchars : "_".toList = ['_'] := by decide
  unfold startsWith
  rw [hchars]
  cases text.toList with
  | nil => decide
  | cons c cs =>
      show (('_' == c) && true) = true ↔ some c = some '_'
      rw [Bool.and_true, beq_iff_eq, Option.some.injEq, eq_comm]

theorem toLower_eq_underscore {c : Char} (h : c.toLower = '_') : c = '_' := by
  unfold Char.toLower at h
  split at h
  · rename_i hupper
    -- a lower-case letter comes after the underscore
    have hval := congrArg (fun d : Char => d.val.toNat) h
    obtain ⟨hlow, hhigh⟩ := hupper
    have hlow : 65 ≤ c.val.toNat := UInt32.le_iff_toNat_le.mp hlow
    have hhigh : c.val.toNat ≤ 90 := UInt32.le_iff_toNat_le.mp hhigh
    have hsum : (c.val.toNat + 32) % 4294967296 = 95 := hval
    omega
  · exact h

theorem head?_eq_none_iff_empty (text : String) : text.toList.head? = none ↔ text = "" := by
  rw [List.head?_eq_none_iff, String.toList_eq_nil_iff]

section
variable {names : List String} (hvalid : ∀ name ∈ names, IsSpssName name)
include hvalid

/-- The lower-case name of a valid one does not start with an underscore. -/
theorem lower_notMem_of_underscore {text : String} (h : startsWith text "_" = true) :
    lower text ∉ names.map lower := by
  intro hmem
  obtain ⟨name, hname, heq⟩ := List.mem_map.mp hmem
  obtain ⟨c, hc, hne⟩ := (hvalid name hname).start
  have hhead := congrArg List.head? heq
  rw [lower, lower, List.head?_map, List.head?_map, hc,
    (startsWith_underscore_iff text).mp h] at hhead
  exact hne (toLower_eq_underscore (Option.some.inj hhead))

/-- No valid name is empty. -/
theorem lower_empty_notMem : lower "" ∉ names.map lower := by
  intro hmem
  obtain ⟨name, hname, heq⟩ := List.mem_map.mp hmem
  obtain ⟨c, hc, _⟩ := (hvalid name hname).start
  have hhead := congrArg List.head? heq
  rw [lower, List.head?_map, hc] at hhead
  cases hhead

end

/-! ### One more name -/

/-- The base without room for a suffix is cut. -/
def cutBase (title : String) : String :=
  if (baseOf title).length > 59 then dropEnd (baseOf title) 5 else baseOf title

theorem toList_cutBase_initial (title : String) :
    (cutBase title).toList <+: (baseOf title).toList := by
  rw [cutBase]
  split
  · rw [toList_dropEnd]
    exact List.take_prefix _ _
  · exact List.prefix_refl _

theorem length_cutBase_le (title : String) : (cutBase title).length ≤ 59 := by
  have hlength := length_truncateColumn_le (cleanTitle title)
  have hbase : (baseOf title).length ≤ 64 := hlength
  rw [cutBase]
  split
  · rw [length_dropEnd]
    omega
  · omega

theorem head?_cutBase (title : String) :
    (cutBase title).toList.head? = (baseOf title).toList.head? := by
  rw [cutBase]
  by_cases hlong : (baseOf title).length > 59
  · rw [if_pos hlong, toList_dropEnd, List.head?_take, if_neg (by omega)]
  · rw [if_neg hlong]

/-- The name that is made of a base. -/
theorem varNameOf_eq (part : UuidPart) (title : String) (names : List String) :
    varNameOf part title names =
      if lower (baseOf title) ∈ names.map lower then
        if startsWith (cutBase title ++ "@" ++ part.text) "_" then
          "@" ++ (cutBase title ++ "@" ++ part.text)
        else cutBase title ++ "@" ++ part.text
      else if startsWith (baseOf title) "_" then "@" ++ baseOf title
      else baseOf title := by
  have hcheck : checkSavColumn part (cleanTitle title) names =
      if lower (baseOf title) ∈ names.map lower then cutBase title ++ "@" ++ part.text
      else baseOf title := rfl
  unfold varNameOf
  rw [hcheck]
  split
  · rfl
  · rfl

theorem validNames_append_singleton {names : List String} {name : String} :
    ValidNames (names ++ [name]) ↔
      ValidNames names ∧ IsSpssName name ∧ lower name ∉ names.map lower := by
  constructor
  · intro ⟨hvalid, hdistinct⟩
    rw [List.map_append, List.map_singleton, ← List.concat_eq_append, List.nodup_concat] at hdistinct
    exact ⟨⟨fun other hother => hvalid other (List.mem_append_left _ hother), hdistinct.2⟩,
      hvalid name (by simp), hdistinct.1⟩
  · intro ⟨⟨hvalid, hdistinct⟩, hname, hnew⟩
    constructor
    · intro other hother
      rcases List.mem_append.mp hother with hother | hother
      · exact hvalid other hother
      · rw [List.mem_singleton.mp hother]
        exact hname
    · rw [List.map_append, List.map_singleton, ← List.concat_eq_append, List.nodup_concat]
      exact ⟨hnew, hdistinct⟩

/-- The characters of a UUID are valid. -/
theorem isSpssChar_of_mem_part (part : UuidPart) {c : Char} (hc : c ∈ part.text.toList) :
    isSpssChar c = true := by
  have halphanum : c.isAlphanum = true := by
    rcases part.hex c hc with hdigit | ⟨hlow, hhigh⟩
    · show (c.isAlpha || c.isDigit) = true
      rw [hdigit, Bool.or_true]
    · have hlow : 97 ≤ c.val.toNat := UInt32.le_iff_toNat_le.mp hlow
      have hhigh : c.val.toNat ≤ 102 := UInt32.le_iff_toNat_le.mp hhigh
      have hlower : c.isLower = true := by
        show (decide (c.val ≥ 97) && decide (c.val ≤ 122)) = true
        rw [Bool.and_eq_true, decide_eq_true_eq, decide_eq_true_eq]
        exact ⟨UInt32.le_iff_toNat_le.mpr hlow,
          UInt32.le_iff_toNat_le.mpr (Nat.le_trans hhigh (by decide))⟩
      show (c.isUpper || c.isLower || c.isDigit) = true
      rw [hlower, Bool.or_true, Bool.true_or]
  rw [isSpssChar, halphanum]
  rfl

/-- A base that does not start with an underscore is a valid name. -/
theorem isSpssName_baseOf {title : String} (hne : baseOf title ≠ "")
    (hstart : ¬ startsWith (baseOf title) "_" = true) : IsSpssName (baseOf title) where
  length_le := length_truncateColumn_le _
  start := by
    cases hhead : (baseOf title).toList.head? with
    | none => exact absurd ((head?_eq_none_iff_empty _).mp hhead) hne
    | some c =>
        refine ⟨c, rfl, ?_⟩
        rintro rfl
        exact hstart ((startsWith_underscore_iff _).mpr hhead)
  chars := chars_baseOf title

/-- A base with a suffix is a valid name. -/
theorem isSpssName_suffixed {title : String} (part : UuidPart) (hne : baseOf title ≠ "")
    (hstart : ¬ startsWith (baseOf title) "_" = true) :
    IsSpssName (cutBase title ++ "@" ++ part.text) := by
  obtain ⟨c, hc, hne⟩ := (isSpssName_baseOf hne hstart).start
  have hhead : (cutBase title ++ "@" ++ part.text).toList.head? = some c := by
    rw [String.toList_append, String.toList_append, List.append_assoc, List.head?_append,
      head?_cutBase, hc, Option.some_or]
  refine ⟨?_, ⟨c, hhead, hne⟩, fun d hd => ?_⟩
  · have hcut := length_cutBase_le title
    have hone : "@".length = 1 := by decide
    rw [String.length_append, String.length_append, part.length_eq, hone]
    omega
  · rw [String.toList_append, String.toList_append, List.mem_append, List.mem_append] at hd
    rcases hd with (hd | hd) | hd
    · exact chars_baseOf title d ((toList_cutBase_initial title).subset hd)
    · have hat : d = '@' := by simpa using hd
      rw [hat]
      decide
    · exact isSpssChar_of_mem_part part hd

/-- A base with an `@` in front is a valid name if the `@` has room. -/
theorem isSpssName_at_iff (title : String) :
    IsSpssName ("@" ++ baseOf title) ↔ (baseOf title).length < 64 := by
  have hlength : ("@" ++ baseOf title).length = 1 + (baseOf title).length := by
    rw [String.length_append]
    rfl
  constructor
  · intro h
    have hle := h.length_le
    omega
  · intro h
    refine ⟨by omega, ⟨'@', ?_, by decide⟩, fun c hc => ?_⟩
    · rw [String.toList_append]
      rfl
    · rw [String.toList_append, List.mem_append] at hc
      rcases hc with hc | hc
      · have hat : c = '@' := by simpa using hc
        rw [hat]
        decide
      · exact chars_baseOf title c hc

/-- One more title keeps the names valid exactly when it fits. -/
theorem validNames_append_iff {names : List String} (h : ValidNames names)
    {title : String × UuidPart} (hfresh : FreshPart names title) :
    ValidNames (names ++ [varNameOf title.2 title.1 names]) ↔ FitsSpss names title.1 := by
  rw [validNames_append_singleton, and_iff_right h, FitsSpss]
  unfold FreshPart at hfresh
  rw [varNameOf_eq] at hfresh ⊢
  by_cases hstart : startsWith (baseOf title.1) "_" = true
  · -- the name is not found without its `@`
    have hnew := lower_notMem_of_underscore h.valid hstart
    have hne : baseOf title.1 ≠ "" := by
      intro hempty
      rw [hempty] at hstart
      cases hstart
    rw [if_neg hnew, if_pos hstart, isSpssName_at_iff]
    simp only [hne, hstart, ne_eq, not_false_eq_true, true_and, true_implies]
  · have hfits : (baseOf title.1 ≠ "" ∧ (startsWith (baseOf title.1) "_" = true →
        (baseOf title.1).length < 64 ∧ lower ("@" ++ baseOf title.1) ∉ names.map lower)) ↔
          baseOf title.1 ≠ "" := and_iff_left fun h => absurd h hstart
    rw [hfits]
    by_cases hne : baseOf title.1 = ""
    · -- nothing is left of the title
      rw [hne, if_neg (lower_empty_notMem h.valid), if_neg (by decide)]
      refine iff_of_false (fun hname => ?_) (fun hne => hne rfl)
      obtain ⟨c, hc, _⟩ := hname.1.start
      cases hc
    · refine iff_of_true ?_ hne
      by_cases hmem : lower (baseOf title.1) ∈ names.map lower
      · have hsuffixed := isSpssName_suffixed title.2 hne hstart
        have hkept : ¬ startsWith (cutBase title.1 ++ "@" ++ title.2.text) "_" = true := by
          intro hunderscore
          obtain ⟨c, hc, hne⟩ := hsuffixed.start
          rw [(startsWith_underscore_iff _).mp hunderscore] at hc
          exact hne (Option.some.inj hc).symm
        rw [if_pos hmem, if_neg hkept] at hfresh ⊢
        exact ⟨hsuffixed, hfresh hmem⟩
      · rw [if_neg hmem, if_neg hstart]
        exact ⟨isSpssName_baseOf hne hstart, hmem⟩

/-! ### All names -/

/-- Each title has a property together with the names before it. -/
def AtEachTitle (property : List String → String × UuidPart → Prop)
    (titles : List (String × UuidPart)) : Prop :=
  ∀ before title after, titles = before ++ title :: after → property (getVarNames before) title

theorem atEachTitle_append_singleton {property : List String → String × UuidPart → Prop}
    {titles : List (String × UuidPart)} {title : String × UuidPart} :
    AtEachTitle property (titles ++ [title]) ↔
      AtEachTitle property titles ∧ property (getVarNames titles) title := by
  constructor
  · intro h
    refine ⟨fun before other after htitles => ?_, h titles title [] rfl⟩
    refine h before other (after ++ [title]) ?_
    rw [htitles, List.append_assoc, List.cons_append]
  · intro ⟨htitles, htitle⟩ before other after heq
    cases after using List.reverseRecOn with
    | nil =>
        obtain ⟨rfl, hlast⟩ := List.append_inj' heq rfl
        obtain ⟨rfl, _⟩ := List.cons.inj hlast
        exact htitle
    | append_singleton after last =>
        rw [← List.cons_append, ← List.append_assoc] at heq
        exact htitles before other after (List.append_inj' heq rfl).1

theorem getVarNames_append_singleton (titles : List (String × UuidPart))
    (title : String × UuidPart) :
    getVarNames (titles ++ [title]) =
      getVarNames titles ++ [varNameOf title.2 title.1 (getVarNames titles)] := by
  unfold getVarNames
  rw [List.foldl_append]
  rfl

/-- The names of all titles are valid and different exactly when each title fits at its turn. -/
theorem validNames_getVarNames_iff (titles : List (String × UuidPart))
    (hfresh : AtEachTitle FreshPart titles) :
    ValidNames (getVarNames titles) ↔
      AtEachTitle (fun names title => FitsSpss names title.1) titles := by
  induction titles using List.reverseRecOn with
  | nil =>
      refine iff_of_true ⟨by simp [getVarNames], List.nodup_nil⟩ (fun before title after h => ?_)
      simp at h
  | append_singleton titles title ih =>
      obtain ⟨hearlier, hlast⟩ := atEachTitle_append_singleton.mp hfresh
      rw [atEachTitle_append_singleton, ← ih hearlier, getVarNames_append_singleton]
      constructor
      · intro h
        have hvalid := (validNames_append_singleton.mp h).1
        exact ⟨hvalid, (validNames_append_iff hvalid hlast).mp h⟩
      · intro ⟨hvalid, hfits⟩
        exact (validNames_append_iff hvalid hlast).mpr hfits

/-! ### Titles with an underscore -/

/-- Hexadecimal digits, by a run through the text. -/
theorem hex_of_all {text : String}
    (h : (text.toList.all fun c => c.isDigit || decide ('a' ≤ c ∧ c ≤ 'f')) = true) :
    ∀ c ∈ text.toList, c.isDigit = true ∨ ('a' ≤ c ∧ c ≤ 'f') := by
  intro c hc
  have hdigit := List.all_eq_true.mp h c hc
  simpa using hdigit

/-- Two parts of a UUID. -/
def firstPart : UuidPart := ⟨"1a2b", by decide +kernel, hex_of_all (by decide +kernel)⟩
def secondPart : UuidPart := ⟨"3c4d", by decide +kernel, hex_of_all (by decide +kernel)⟩

/-- Two titles that start with an underscore. -/
def underscores : List (String × UuidPart) :=
  [("_id", firstPart), ("_id", secondPart)]

theorem atEachTitle_nil (property : List String → String × UuidPart → Prop) :
    AtEachTitle property [] := by
  intro before title after h
  simp at h

theorem freshPart_underscores : AtEachTitle FreshPart underscores := by
  have hone : AtEachTitle FreshPart ([] ++ [("_id", firstPart)]) :=
    atEachTitle_append_singleton.mpr
      ⟨atEachTitle_nil FreshPart, fun hmem => absurd hmem List.not_mem_nil⟩
  refine atEachTitle_append_singleton.mpr ⟨hone, fun hmem => absurd hmem ?_⟩
  decide +kernel

/-- Both get one name. -/
theorem not_validNames_underscores :
    ¬∀ titles, AtEachTitle FreshPart titles → ValidNames (getVarNames titles) := by
  intro h
  exact absurd (h underscores freshPart_underscores).distinct (by decide +kernel)

/-- A title of letters fits. -/
theorem validNames_species :
    ValidNames (getVarNames ([] ++ [("tree/species", firstPart)])) := by
  refine (validNames_getVarNames_iff _ ?_).mpr ?_
  · exact atEachTitle_append_singleton.mpr
      ⟨atEachTitle_nil FreshPart, fun hmem => absurd hmem List.not_mem_nil⟩
  · exact atEachTitle_append_singleton.mpr
      ⟨atEachTitle_nil _, by decide +kernel, fun h => absurd h (by decide +kernel)⟩

end Onadata.Proofs
