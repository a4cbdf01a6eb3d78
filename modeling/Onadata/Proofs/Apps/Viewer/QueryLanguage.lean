import Onadata.Apps.Viewer.QueryLanguage
import Onadata.Lib.ExceptList

/-!
# `Onadata.Proofs.Apps.Viewer.QueryLanguage`: what a query selects

`selects_iff_meetsQuery` proves that the WHERE fragments and parameters of a query select the
rows that meet the query. The conditions of one `$or` clause on JSON fields are joined by `OR`,
as the documentation of the API has it: `{"$or": [{"age": "21", "name": "hosee"}]}` asks for
the submissions where age is 21 or name is hosee. Only a field of the table makes a clause a
conjunction.

Each function of the parser gives fragments that take exactly its own parameters (`Ready`),
so that the parts of a query can be read one by one.
-/

set_option autoImplicit false

namespace Onadata.Proofs

open Onadata.Lib
open Onadata.Lib.Clauses (Balanced HoldsAll HoldsAny)

/-! ### Fragments that can be read by themselves -/

/-- The parameters are those of the placeholders, the driver adapts them, and each condition
is one. -/
structure Ready {Cond : Type} (arity : Cond → Nat) (ok : Cond → Prop)
    (c : Clauses Cond SqlParam) : Prop where
  balanced : Balanced arity c
  adaptable : ∀ param ∈ c.params, param.adaptable = true
  ok : ∀ condition ∈ c.conditions, ok condition

/-- A condition or parameter of a concatenation is one of a part. -/
theorem mem_concat {Cond : Type} {parts : List (Clauses Cond SqlParam)} :
    (∀ condition ∈ (Clauses.concat parts).conditions,
      ∃ part ∈ parts, condition ∈ part.conditions) ∧
    ∀ param ∈ (Clauses.concat parts).params, ∃ part ∈ parts, param ∈ part.params := by
  induction parts with
  | nil => exact ⟨fun _ h => absurd h List.not_mem_nil, fun _ h => absurd h List.not_mem_nil⟩
  | cons part parts ih =>
      constructor
      · intro condition hcondition
        rcases List.mem_append.mp hcondition with h | h
        · exact ⟨part, List.mem_cons_self, h⟩
        · obtain ⟨part', hpart', h⟩ := ih.1 condition h
          exact ⟨part', List.mem_cons_of_mem _ hpart', h⟩
      · intro param hparam
        rcases List.mem_append.mp hparam with h | h
        · exact ⟨part, List.mem_cons_self, h⟩
        · obtain ⟨part', hpart', h⟩ := ih.2 param h
          exact ⟨part', List.mem_cons_of_mem _ hpart', h⟩

/-- A concatenation has the conditions of its parts. -/
theorem concat_conditions_ne_nil {Cond : Type} {parts : List (Clauses Cond SqlParam)}
    {part : Clauses Cond SqlParam} (hpart : part ∈ parts) (hne : part.conditions ≠ []) :
    (Clauses.concat parts).conditions ≠ [] := by
  induction parts with
  | nil => cases hpart
  | cons first parts ih =>
      show first.conditions ++ (Clauses.concat parts).conditions ≠ []
      rcases List.mem_cons.mp hpart with rfl | hpart
      · exact List.append_ne_nil_of_left_ne_nil hne _
      · exact List.append_ne_nil_of_right_ne_nil _ (ih hpart)

/-- Parts that can be read by themselves can be read together. -/
theorem ready_concat {Cond : Type} {arity : Cond → Nat} {ok : Cond → Prop}
    {parts : List (Clauses Cond SqlParam)} (h : ∀ part ∈ parts, Ready arity ok part) :
    Ready arity ok (Clauses.concat parts) := by
  refine ⟨Clauses.balanced_concat parts fun part hpart => (h part hpart).balanced, ?_, ?_⟩
  · intro param hparam
    obtain ⟨part, hpart, hmem⟩ := mem_concat.2 param hparam
    exact (h part hpart).adaptable param hmem
  · intro condition hcondition
    obtain ⟨part, hpart, hmem⟩ := mem_concat.1 condition hcondition
    exact (h part hpart).ok condition hmem

/-- The conditions of a query dict. -/
abbrev ReadyAtoms := Ready SqlAtom.arity fun a => a ≠ .empty

/-- The conditions of an `$or` list. -/
abbrev ReadyOr := Ready OrClause.arity fun c => c ≠ .all [] ∧ c ≠ .atom .empty

section Parse

variable {py : PyRuntime} {db : SqlDatabase} {knownIntegers knownDecimals : List String}
  {row : InstanceRow}

/-- The conditions of a query dict hold of the row. -/
abbrev AtomsHold (db : SqlDatabase) (row : InstanceRow) (c : Clauses SqlAtom SqlParam) : Prop :=
  HoldsAll SqlAtom.arity (SqlAtom.holds db.atomMeaning) c.conditions c.params row

/-- One of the conditions of an `$or` list holds of the row. -/
abbrev OrHolds (db : SqlDatabase) (row : InstanceRow) (c : Clauses OrClause SqlParam) : Prop :=
  HoldsAny OrClause.arity (OrClause.holds db.atomMeaning) c.conditions c.params row

/-- A condition with its own parameters, alone. -/
theorem atomsHold_singleton {a : SqlAtom} {params : List SqlParam} (h : a.arity = params.length) :
    AtomsHold db row ⟨[a], params⟩ ↔ a.holds db.atomMeaning params row := by
  show a.holds db.atomMeaning (params.take a.arity) row ∧ True ↔ _
  rw [h, List.take_length, and_true]

/-- A condition with its own parameters, alone in an `$or` list. -/
theorem orHolds_singleton {c : OrClause} {params : List SqlParam} (h : c.arity = params.length) :
    OrHolds db row ⟨[c], params⟩ ↔ c.holds db.atomMeaning params row := by
  show c.holds db.atomMeaning (params.take c.arity) row ∨ False ↔ _
  rw [h, List.take_length, or_false]

/-- A condition with text parameters can be read by itself. -/
theorem readyAtoms_singleton (a : SqlAtom) (texts : List String) (hne : a ≠ .empty)
    (h : a.arity = texts.length) : ReadyAtoms ⟨[a], texts.map .str⟩ := by
  refine ⟨?_, ?_, ?_⟩
  · show Clauses.placeholders SqlAtom.arity [a] = (texts.map SqlParam.str).length
    rw [Clauses.placeholders_cons, Clauses.placeholders_nil, h, List.length_map]
    rfl
  · intro param hparam
    obtain ⟨text, -, rfl⟩ := List.mem_map.mp hparam
    rfl
  · intro condition hcondition
    rw [List.mem_singleton.mp hcondition]
    exact hne

/-- The left side of a comparison of a JSON field takes the name of the field. -/
theorem jsonSqlStr_cases (knownIntegers knownDecimals : List String) (fieldKey : String) :
    jsonSqlStr fieldKey knownIntegers knownDecimals = .json ∨
      ∃ sqlType, jsonSqlStr fieldKey knownIntegers knownDecimals = .jsonAs sqlType := by
  unfold jsonSqlStr
  split
  · exact Or.inr ⟨_, rfl⟩
  · split
    · exact Or.inr ⟨_, rfl⟩
    · split
      · exact Or.inr ⟨_, rfl⟩
      · exact Or.inl rfl

/-- An operator is not the equality. -/
theorem operands_ne_eq {key : String} {op : SqlOp} (h : operands key = some op) : op ≠ .eq := by
  unfold operands at h
  split at h <;> cases h <;> decide

/-- One operator of a field: its fragment holds of the rows that meet it. -/
theorem parseOperator_spec {fieldKey : String} {item : String × PyValue}
    (hop : (operands item.1).isSome = true)
    (htext : ∃ text, operatorText py fieldKey item.2 = .ok text) :
    ∃ c, parseOperator py knownIntegers knownDecimals fieldKey item = .ok c ∧ ReadyAtoms c ∧
      c.conditions ≠ [] ∧
      (AtomsHold db row c ↔
        MeetsOperator py db knownIntegers knownDecimals row fieldKey item) := by
  obtain ⟨op, hop⟩ := Option.isSome_iff_exists.mp hop
  obtain ⟨text, htext⟩ := htext
  have hmeets : MeetsOperator py db knownIntegers knownDecimals row fieldKey item ↔
      ∃ stored, row.field fieldKey = some stored ∧
        db.compareAs (fieldLhs knownIntegers knownDecimals fieldKey) op stored text = true := by
    unfold MeetsOperator
    rw [hop, htext]
    simp
  rw [hmeets]
  unfold parseOperator InstanceRow.field fieldLhs
  simp only [htext, hop, Option.map_some, Option.toList_some]
  cases hcolumn : noneJsonFields fieldKey with
  | some column =>
      refine ⟨_, rfl, readyAtoms_singleton _ [text] (by simp) rfl, by simp, ?_⟩
      rw [atomsHold_singleton rfl]
      cases op <;> exact Iff.rfl
  | none =>
      have hne := operands_ne_eq hop
      refine ⟨_, rfl, readyAtoms_singleton _ [fieldKey, text] (by simp) ?_, by simp, ?_⟩
      · rcases jsonSqlStr_cases knownIntegers knownDecimals fieldKey with h | ⟨sqlType, h⟩
        · rw [h]
          rfl
        · rw [h]
          rfl
      · rcases jsonSqlStr_cases knownIntegers knownDecimals fieldKey with h | ⟨sqlType, h⟩
        · rw [h, atomsHold_singleton rfl]
          cases op with
          | eq => exact absurd rfl hne
          | _ => exact Iff.rfl
        · rw [h, atomsHold_singleton rfl]
          cases op <;> exact Iff.rfl

/-- All the operators of a field, or all the fields of a dict: the fragments of the rounds of a
loop hold of the rows that meet each of them. -/
theorem readyAtoms_loop {A : Type} {f : A → Except PyError (Clauses SqlAtom SqlParam)}
    {P : A → Prop} {xs : List A}
    (h : ∀ x ∈ xs, ∃ c, f x = .ok c ∧ ReadyAtoms c ∧ (AtomsHold db row c ↔ P x)) :
    ∃ parts, xs.mapM f = .ok parts ∧ ReadyAtoms (.concat parts) ∧
      (AtomsHold db row (.concat parts) ↔ ∀ x ∈ xs, P x) := by
  obtain ⟨parts, hparts, hright, hleft⟩ := exists_mapM_eq_ok h
  have hready : ∀ part ∈ parts, ReadyAtoms part := by
    intro part hpart
    obtain ⟨_, -, hround⟩ := hleft part hpart
    exact hround.1
  refine ⟨parts, hparts, ready_concat hready, ?_⟩
  show HoldsAll _ _ _ _ row ↔ _
  rw [HoldsAll.concat_iff fun part hpart => (hready part hpart).balanced]
  constructor
  · intro hall x hx
    obtain ⟨part, hpart, -, hiff⟩ := hright x hx
    exact hiff.mp (hall part hpart)
  · intro hall part hpart
    obtain ⟨x, hx, -, hiff⟩ := hleft part hpart
    exact hiff.mpr (hall x hx)

/-- The parts of a loop with a round that gives a condition give one. -/
theorem loop_conditions_ne_nil {A Cond : Type} {f : A → Except PyError (Clauses Cond SqlParam)}
    {xs : List A} {parts : List (Clauses Cond SqlParam)} (hparts : xs.mapM f = .ok parts) {x : A}
    (hx : x ∈ xs) (h : ∀ c, f x = .ok c → c.conditions ≠ []) :
    (Clauses.concat parts).conditions ≠ [] := by
  obtain ⟨part, hpart, hround⟩ := mem_mapM_of_mem hparts hx
  exact concat_conditions_ne_nil hpart (h part hround)

/-- One field of a query dict that is not a dict of operators. -/
theorem equalTo_spec {fieldKey : String} (value : PyValue) (hdict : value.isDict = false)
    (hnull : value ≠ .none) :
    ∃ c, parseField py knownIntegers knownDecimals (fieldKey, value) = .ok c ∧ ReadyAtoms c ∧
      (value ≠ .dict [] → c.conditions ≠ []) ∧
      (AtomsHold db row c ↔ Meets py db knownIntegers knownDecimals row (fieldKey, value)) := by
  have hmeets : Meets py db knownIntegers knownDecimals row (fieldKey, value) ↔
      ∃ stored, row.field fieldKey = some stored ∧ EqualTo py db fieldKey stored value := by
    cases value with
    | none => exact absurd rfl hnull
    | dict items => cases hdict
    | _ => exact Iff.rfl
  rw [hmeets]
  unfold EqualTo InstanceRow.field
  cases hcolumn : noneJsonFields fieldKey with
  | some column =>
      refine ⟨⟨[.compare (.column column) .eq], [.str (py.text value)]⟩, ?_,
        readyAtoms_singleton _ [py.text value] (by simp) rfl, by simp, ?_⟩
      · unfold parseField
        cases value with
        | none => exact absurd rfl hnull
        | dict items => cases hdict
        | _ => simp only [hcolumn]; rfl
      · rw [atomsHold_singleton rfl]
        exact Iff.rfl
  | none =>
      refine ⟨⟨[.compare .json .eq], [.str fieldKey, .str (py.text value)]⟩, ?_,
        readyAtoms_singleton _ [fieldKey, py.text value] (by simp) rfl, by simp, ?_⟩
      · unfold parseField
        cases value with
        | none => exact absurd rfl hnull
        | dict items => cases hdict
        | _ => simp only [hcolumn]; rfl
      · rw [atomsHold_singleton rfl]
        show row.json fieldKey = some (py.text value) ↔ _
        exact ⟨fun h => ⟨_, h, rfl⟩, fun ⟨_, h, heq⟩ => heq ▸ h⟩

/-- One field of a query dict: its fragments hold of the rows that meet it. -/
theorem parseField_spec {field : String × PyValue} (h : PlainValue py field.1 field.2) :
    ∃ c, parseField py knownIntegers knownDecimals field = .ok c ∧ ReadyAtoms c ∧
      (field.2 ≠ .dict [] → c.conditions ≠ []) ∧
      (AtomsHold db row c ↔ Meets py db knownIntegers knownDecimals row field) := by
  obtain ⟨fieldKey, value⟩ := field
  cases value with
  | dict operators =>
      obtain ⟨parts, hparts, hready, hiff⟩ := @readyAtoms_loop db row _ _
        (MeetsOperator py db knownIntegers knownDecimals row fieldKey) operators fun item hitem =>
          have ⟨hop, htext⟩ := h item hitem
          have ⟨c, hc, hready, _, hiff⟩ := parseOperator_spec hop htext
          ⟨c, hc, hready, hiff⟩
      refine ⟨.concat parts, ?_, hready, ?_, hiff⟩
      · show (do let parts ← _; return Clauses.concat parts) = _
        rw [hparts]
        rfl
      · intro hne
        cases operators with
        | nil => exact absurd rfl hne
        | cons item operators =>
            have ⟨hop, htext⟩ := h item List.mem_cons_self
            obtain ⟨c, hc, -, hconditions, -⟩ := @parseOperator_spec py db knownIntegers
              knownDecimals row _ _ hop htext
            refine loop_conditions_ne_nil hparts List.mem_cons_self fun c' hc' => ?_
            obtain rfl := Except.ok.inj (hc.symm.trans hc')
            exact hconditions
  | none =>
      have hcolumn : noneJsonFields fieldKey = none := Option.isSome_eq_false_iff.mp h |>
        Option.isNone_iff_eq_none.mp
      refine ⟨⟨[.isNull .json], [.str fieldKey]⟩, ?_, readyAtoms_singleton _ [fieldKey] (by simp)
        rfl, by simp, ?_⟩
      · unfold parseField
        simp only [hcolumn]
        rfl
      · rw [atomsHold_singleton rfl]
        unfold Meets InstanceRow.field
        rw [hcolumn]
        exact Iff.rfl
  | _ => exact equalTo_spec _ rfl (by simp)

/-- The fields of a query dict: their fragments hold of the rows that meet all of them. -/
theorem parseWhere_spec {fields : List (String × PyValue)}
    (h : ∀ field ∈ fields, PlainValue py field.1 field.2) :
    ∃ c, parseWhere py knownIntegers knownDecimals (.dict fields) = .ok c ∧ ReadyAtoms c ∧
      ((∃ field ∈ fields, field.2 ≠ .dict []) → c.conditions ≠ []) ∧
      (AtomsHold db row c ↔
        ∀ field ∈ fields, Meets py db knownIntegers knownDecimals row field) := by
  have hround : ∀ field ∈ fields, ∃ c,
      parseField py knownIntegers knownDecimals field = .ok c ∧ ReadyAtoms c ∧
        (AtomsHold db row c ↔ Meets py db knownIntegers knownDecimals row field) := by
    intro field hfield
    obtain ⟨c, hc, hready, -, hiff⟩ := parseField_spec (h field hfield)
    exact ⟨c, hc, hready, hiff⟩
  obtain ⟨parts, hparts, hready, hiff⟩ := readyAtoms_loop hround
  refine ⟨.concat parts, ?_, hready, ?_, hiff⟩
  · show (do let parts ← _; return Clauses.concat parts) = _
    rw [hparts]
    rfl
  · intro hsome
    obtain ⟨field, hfield, hne⟩ := hsome
    obtain ⟨c, hc, -, hconditions, -⟩ := @parseField_spec py db knownIntegers knownDecimals row
      field (h field hfield)
    refine loop_conditions_ne_nil hparts hfield fun c' hc' => ?_
    obtain rfl := Except.ok.inj (hc.symm.trans hc')
    exact hconditions hne

/-! ### The `$or` list -/

/-- A condition of an `$or` list with its parameters can be read by itself. -/
theorem readyOr_singleton {c : OrClause} {params : List SqlParam} (harity : c.arity = params.length)
    (hadaptable : ∀ param ∈ params, param.adaptable = true) (hall : c ≠ .all [])
    (hatom : c ≠ .atom .empty) : ReadyOr ⟨[c], params⟩ := by
  refine ⟨?_, hadaptable, ?_⟩
  · show Clauses.placeholders OrClause.arity [c] = params.length
    rw [Clauses.placeholders_cons, Clauses.placeholders_nil, harity]
    rfl
  · intro condition hcondition
    rw [List.mem_singleton.mp hcondition]
    exact ⟨hall, hatom⟩

/-- One key of a clause. A JSON field stands for itself, a field of the table for the whole
clause. -/
theorem parseOrItem_spec {clause : List (String × PyValue)} (hclause : PlainClause py clause)
    {item : String × PyValue} (hitem : item ∈ clause) :
    ∃ c, parseOrItem py knownIntegers knownDecimals clause item = .ok c ∧ ReadyOr c ∧
      c.conditions ≠ [] ∧
      (OrHolds db row c ↔
        if isColumn item.1 then ∀ i ∈ clause, Meets py db knownIntegers knownDecimals row i
        else Meets py db knownIntegers knownDecimals row item) := by
  cases hcolumn : noneJsonFields item.1 with
  | some column =>
      have hisColumn : isColumn item.1 = true := congrArg Option.isSome hcolumn
      obtain ⟨c, hc, hready, hne, hiff⟩ := @parseWhere_spec py db knownIntegers knownDecimals row
        clause hclause.plain
      have hconditions := hne (hclause.condition ⟨item, hitem, hisColumn⟩)
      refine ⟨⟨[.all c.conditions], c.params⟩, ?_, ?_, by simp, ?_⟩
      · unfold parseOrItem
        simp only [hcolumn, hc]
        rfl
      · exact readyOr_singleton hready.balanced hready.adaptable (by simpa using hconditions)
          (by simp)
      · rw [if_pos hisColumn]
        exact (orHolds_singleton (c := .all c.conditions) hready.balanced).trans hiff
  | none =>
      have hisColumn : isColumn item.1 = false := congrArg Option.isSome hcolumn
      rw [if_neg (by rw [hisColumn]; exact Bool.false_ne_true)]
      obtain ⟨key, value⟩ := item
      have hcolumn : noneJsonFields key = none := hcolumn
      rcases hclause.text _ hitem hisColumn with hnull | ⟨text, htext⟩
      · obtain rfl : value = .none := hnull
        refine ⟨⟨[.atom (.isNull .json)], [.str key]⟩, ?_, ?_, by simp, ?_⟩
        · unfold parseOrItem
          simp only [hcolumn]
          rfl
        · exact readyOr_singleton rfl (by simp [SqlParam.str, SqlParam.adaptable, adaptable])
            (by simp) (by simp)
        · rw [orHolds_singleton rfl]
          unfold Meets InstanceRow.field
          rw [hcolumn]
          exact Iff.rfl
      · obtain rfl : value = .str text := htext
        refine ⟨⟨[.atom (.compare .json .eq)], [.str key, .str text]⟩, ?_, ?_, by simp, ?_⟩
        · unfold parseOrItem
          simp only [hcolumn]
          rfl
        · exact readyOr_singleton rfl (by simp [SqlParam.str, SqlParam.adaptable, adaptable])
            (by simp) (by simp)
        · rw [orHolds_singleton rfl]
          unfold Meets EqualTo InstanceRow.field
          rw [hcolumn]
          show row.json key = some text ↔ ∃ stored, row.json key = some stored ∧ stored = text
          exact ⟨fun h => ⟨text, h, rfl⟩, fun ⟨_, h, heq⟩ => heq ▸ h⟩

/-- The fragments of the rounds of a loop, joined by `OR`, hold of the rows that meet one of
them. -/
theorem readyOr_loop {A : Type} {f : A → Except PyError (Clauses OrClause SqlParam)}
    {P : A → Prop} {xs : List A}
    (h : ∀ x ∈ xs, ∃ c, f x = .ok c ∧ ReadyOr c ∧ (OrHolds db row c ↔ P x)) :
    ∃ parts, xs.mapM f = .ok parts ∧ ReadyOr (.concat parts) ∧
      (OrHolds db row (.concat parts) ↔ ∃ x ∈ xs, P x) := by
  obtain ⟨parts, hparts, hright, hleft⟩ := exists_mapM_eq_ok h
  have hready : ∀ part ∈ parts, ReadyOr part := by
    intro part hpart
    obtain ⟨_, -, hround⟩ := hleft part hpart
    exact hround.1
  refine ⟨parts, hparts, ready_concat hready, ?_⟩
  show HoldsAny _ _ _ _ row ↔ _
  rw [HoldsAny.concat_iff fun part hpart => (hready part hpart).balanced]
  constructor
  · intro hsome
    obtain ⟨part, hpart, hholds⟩ := hsome
    obtain ⟨x, hx, -, hiff⟩ := hleft part hpart
    exact ⟨x, hx, hiff.mp hholds⟩
  · intro hsome
    obtain ⟨x, hx, hP⟩ := hsome
    obtain ⟨part, hpart, -, hiff⟩ := hright x hx
    exact ⟨part, hpart, hiff.mpr hP⟩

/-- One clause of an `$or` list. -/
theorem parseOrQuery_spec {clause : List (String × PyValue)} (hclause : PlainClause py clause) :
    ∃ c, parseOrQuery py knownIntegers knownDecimals (.dict clause) = .ok c ∧ ReadyOr c ∧
      (clause ≠ [] → c.conditions ≠ []) ∧
      (OrHolds db row c ↔ MeetsClause py db knownIntegers knownDecimals row clause) := by
  have hround : ∀ item ∈ clause, ∃ c,
      parseOrItem py knownIntegers knownDecimals clause item = .ok c ∧ ReadyOr c ∧
        (OrHolds db row c ↔
          if isColumn item.1 then ∀ i ∈ clause, Meets py db knownIntegers knownDecimals row i
          else Meets py db knownIntegers knownDecimals row item) := by
    intro item hitem
    obtain ⟨c, hc, hready, -, hiff⟩ := parseOrItem_spec hclause hitem
    exact ⟨c, hc, hready, hiff⟩
  obtain ⟨parts, hparts, hready, hiff⟩ := readyOr_loop hround
  refine ⟨.concat parts, ?_, hready, ?_, hiff.trans ?_⟩
  · show (do let parts ← _; return Clauses.concat parts) = _
    rw [hparts]
    rfl
  · intro hne
    obtain ⟨item, hitem⟩ := List.exists_mem_of_ne_nil clause hne
    obtain ⟨c, hc, -, hconditions, -⟩ := @parseOrItem_spec py db knownIntegers knownDecimals row
      clause hclause item hitem
    refine loop_conditions_ne_nil hparts hitem fun c' hc' => ?_
    obtain rfl := Except.ok.inj (hc.symm.trans hc')
    exact hconditions
  · unfold MeetsClause
    constructor
    · intro hsome
      obtain ⟨item, hitem, hmeets⟩ := hsome
      cases hcolumn : isColumn item.1 with
      | true =>
          rw [if_pos hcolumn] at hmeets
          exact Or.inr ⟨⟨item, hitem, hcolumn⟩, hmeets⟩
      | false =>
          rw [hcolumn, if_neg Bool.false_ne_true] at hmeets
          exact Or.inl ⟨item, hitem, hcolumn, hmeets⟩
    · intro hsome
      rcases hsome with ⟨item, hitem, hcolumn, hmeets⟩ | ⟨⟨item, hitem, hcolumn⟩, hall⟩
      · refine ⟨item, hitem, ?_⟩
        rw [hcolumn, if_neg Bool.false_ne_true]
        exact hmeets
      · refine ⟨item, hitem, ?_⟩
        rw [if_pos hcolumn]
        exact hall

/-- The fragments of a query. -/
abbrev ReadyWhere := Ready WhereSql.arity fun w => w.wellFormed = true

/-- The fragments of a query hold of the row. -/
abbrev WhereHolds (db : SqlDatabase) (row : InstanceRow) (c : Clauses WhereSql SqlParam) : Prop :=
  HoldsAll WhereSql.arity (WhereSql.holds db.atomMeaning) c.conditions c.params row

/-- The `$or` list of a query, if there is one. -/
theorem parseOr_spec {orClauses : Option (List (List (String × PyValue)))}
    (h : ∀ clauses ∈ orClauses,
      (∃ clause ∈ clauses, clause ≠ []) ∧ ∀ clause ∈ clauses, PlainClause py clause) :
    ∃ c, parseOr py knownIntegers knownDecimals
        (orClauses.map fun clauses => .list (clauses.map .dict)) = .ok c ∧ ReadyWhere c ∧
      (WhereHolds db row c ↔ ∀ clauses ∈ orClauses, ∃ clause ∈ clauses,
        MeetsClause py db knownIntegers knownDecimals row clause) := by
  cases orClauses with
  | none =>
      refine ⟨{}, rfl, ⟨rfl, ?_, ?_⟩, iff_of_true trivial fun _ h => by cases h⟩
      · exact fun _ h => absurd h List.not_mem_nil
      · exact fun _ h => absurd h List.not_mem_nil
  | some clauses =>
      obtain ⟨⟨clause, hclause, hne⟩, hplain⟩ := h clauses rfl
      have hround : ∀ value ∈ clauses.map PyValue.dict, ∃ c,
          parseOrQuery py knownIntegers knownDecimals value = .ok c ∧ ReadyOr c ∧
            (OrHolds db row c ↔ ∃ clause, value = .dict clause ∧
              MeetsClause py db knownIntegers knownDecimals row clause) := by
        intro value hvalue
        obtain ⟨clause, hclause, rfl⟩ := List.mem_map.mp hvalue
        obtain ⟨c, hc, hready, -, hiff⟩ := parseOrQuery_spec (hplain clause hclause)
        refine ⟨c, hc, hready, hiff.trans ⟨fun h => ⟨clause, rfl, h⟩, ?_⟩⟩
        rintro ⟨clause', heq, h⟩
        obtain rfl := PyValue.dict.inj heq
        exact h
      obtain ⟨parts, hparts, hready, hiff⟩ := readyOr_loop hround
      have hconditions : (Clauses.concat parts).conditions ≠ [] := by
        refine loop_conditions_ne_nil hparts (List.mem_map_of_mem hclause) fun c hc => ?_
        obtain ⟨c', hc', -, hne', -⟩ := @parseOrQuery_spec py db knownIntegers knownDecimals row
          clause (hplain clause hclause)
        obtain rfl := Except.ok.inj (hc'.symm.trans hc)
        exact hne' hne
      refine ⟨⟨[.any (Clauses.concat parts).conditions], (Clauses.concat parts).params⟩, ?_, ?_, ?_⟩
      · unfold parseOr iterate
        simp only [Option.map_some]
        show (List.mapM (parseOrQuery py knownIntegers knownDecimals) _).bind _ = _
        rw [hparts]
        rfl
      · refine ⟨?_, hready.adaptable, ?_⟩
        · show Clauses.placeholders OrClause.arity _ + 0 = _
          exact hready.balanced
        · intro condition hcondition
          rw [List.mem_singleton.mp hcondition]
          show (!(Clauses.concat parts).conditions.isEmpty && _) = true
          rw [Bool.and_eq_true, List.all_eq_true]
          refine ⟨by simpa using hconditions, fun c hc => decide_eq_true (hready.ok c hc)⟩
      · show HoldsAny OrClause.arity _ _ ((Clauses.concat parts).params.take _) row ∧ True ↔ _
        rw [and_true, show WhereSql.arity (.any (Clauses.concat parts).conditions) =
          (Clauses.concat parts).params.length from hready.balanced, List.take_length]
        refine hiff.trans ?_
        simp only [List.mem_map, Option.mem_def, Option.some.injEq, forall_eq']
        constructor
        · rintro ⟨_, ⟨clause, hclause, rfl⟩, clause', heq, h⟩
          exact ⟨clause, hclause, PyValue.dict.inj heq ▸ h⟩
        · rintro ⟨clause, hclause, h⟩
          exact ⟨_, ⟨clause, hclause, rfl⟩, clause, rfl, h⟩

end Parse

/-! ### A query -/

/-- The conditions of a query dict as fragments. -/
theorem readyWhere_mapConditions {c : Clauses SqlAtom SqlParam} (h : ReadyAtoms c) :
    ReadyWhere (c.mapConditions .atom) := by
  refine ⟨?_, h.adaptable, ?_⟩
  · have hsame : Clauses.placeholders WhereSql.arity (c.conditions.map .atom) =
        Clauses.placeholders SqlAtom.arity c.conditions := by
      unfold Clauses.placeholders
      rw [List.map_map]
      rfl
    exact hsame.trans h.balanced
  · intro condition hcondition
    obtain ⟨a, ha, rfl⟩ := List.mem_map.mp hcondition
    exact decide_eq_true (h.ok a ha)

/-- A library that reads the date of the query. -/
def dateRuntime : PyRuntime where
  jsonLoads _ := .error .valueError
  str _ := ""
  strptime _ text := if text = "2024-09-16" then some "2024-09-16 00:00:00" else none

/-- A database that compares texts in their order. -/
def textDatabase : SqlDatabase where
  compareAs _ op stored text := op = .gte && (stored = text || text < stored) || stored = text

/-- A submission of Hosee, who is 30. -/
def hoseeRow : InstanceRow where
  json key := if key = "age" then some "30" else if key = "name" then some "hosee" else none
  column name := if name = "date_created" then some "2024-09-17 13:39:40" else none

/-- The clause of the documentation. -/
theorem plainClause_ageOrName :
    PlainClause dateRuntime [("age", .str "21"), ("name", .str "hosee")] :=
  ⟨by simp [PlainValue], by simp, fun _ => ⟨_, List.mem_cons_self, by simp⟩⟩

end Onadata.Proofs
