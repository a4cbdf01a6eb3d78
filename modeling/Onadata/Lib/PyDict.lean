import Mathlib.Data.List.Nodup
import Onadata.Lib.PyValue

/-!
# `Onadata.Lib.PyDict`: the dict operations

What `Dict.insert` does to the keys and the values of a dict, and dicts that are built from
pairs with different keys.
-/

set_option autoImplicit false

namespace Onadata.Lib.Dict

variable {Key Value : Type} [DecidableEq Key]

/-- `list(d)`. -/
def keys (d : List (Key × Value)) : List Key :=
  d.map (·.1)

omit [DecidableEq Key] in
@[simp]
theorem keys_nil : keys ([] : List (Key × Value)) = [] := rfl

omit [DecidableEq Key] in
@[simp]
theorem keys_cons (item : Key × Value) (d : List (Key × Value)) :
    keys (item :: d) = item.1 :: keys d := rfl

omit [DecidableEq Key] in
@[simp]
theorem keys_append (d d' : List (Key × Value)) : keys (d ++ d') = keys d ++ keys d' :=
  List.map_append

/-- A key without a value is no key. -/
theorem get?_eq_none {d : List (Key × Value)} {key : Key} :
    get? d key = none ↔ key ∉ keys d := by
  induction d with
  | nil => simp [get?_nil]
  | cons item d ih =>
      by_cases h : item.1 = key
      · simp [get?_cons, h]
      · simp [get?_cons, h, ih, Ne.symm h]

/-- The value of an item. -/
theorem get?_of_mem {d : List (Key × Value)} (hnodup : (keys d).Nodup) {item : Key × Value}
    (hmem : item ∈ d) : get? d item.1 = some item.2 := by
  induction d with
  | nil => simp at hmem
  | cons first d ih =>
      rw [keys_cons, List.nodup_cons] at hnodup
      rcases List.mem_cons.mp hmem with rfl | hmem
      · simp [get?_cons]
      · have hne : first.1 ≠ item.1 := by
          intro heq
          exact hnodup.1 (heq ▸ List.mem_map_of_mem hmem)
        rw [get?_cons, if_neg hne]
        exact ih hnodup.2 hmem

/-- A dict from its keys and their values. -/
theorem eq_map_keys {d : List (Key × Value)} (hnodup : (keys d).Nodup) (other : Value) :
    d = (keys d).map fun key => (key, (get? d key).getD other) := by
  rw [keys, List.map_map]
  refine ((List.map_congr_left fun item hitem => ?_).trans (List.map_id d)).symm
  show (item.1, (get? d item.1).getD other) = item
  rw [get?_of_mem hnodup hitem]
  rfl

/-- A value of the dict comes from an item. -/
theorem mem_of_get? {d : List (Key × Value)} {key : Key} {value : Value}
    (h : get? d key = some value) : (key, value) ∈ d := by
  induction d with
  | nil => simp [get?_nil] at h
  | cons item d ih =>
      rw [get?_cons] at h
      split at h
      · rename_i hkey
        rw [← hkey, ← Option.some.inj h]
        exact List.mem_cons_self
      · exact List.mem_cons_of_mem item (ih h)

/-- The value of a key after an insertion. -/
theorem get?_insert (d : List (Key × Value)) (key key' : Key) (value : Value) :
    get? (insert d key value) key' = if key' = key then some value else get? d key' := by
  induction d with
  | nil => simp [insert_nil, get?_cons, get?_nil, eq_comm]
  | cons item d ih =>
      by_cases h : item.1 = key
      · by_cases h' : key' = key
        · simp [insert_cons, h, get?_cons, h']
        · simp [insert_cons, h, get?_cons, h', Ne.symm h']
      · simp only [insert_cons, if_neg h, get?_cons, ih]
        by_cases h' : item.1 = key'
        · rw [if_pos h', if_pos h', if_neg fun heq => h (h'.trans heq)]
        · rw [if_neg h', if_neg h']

/-- The values of a dict become others. -/
theorem get?_mapValues {Value' : Type} (d : List (Key × Value)) (f : Key → Value → Value')
    (key : Key) :
    get? (d.map fun item => (item.1, f item.1 item.2)) key = (get? d key).map (f key) := by
  induction d with
  | nil => rfl
  | cons item rest ih =>
      rw [List.map_cons, get?_cons, get?_cons, ih]
      by_cases heq : item.1 = key
      · rw [if_pos heq, if_pos heq, heq]
        rfl
      · rw [if_neg heq, if_neg heq]

/-- The items with the keys of a property. -/
theorem get?_filter_key (d : List (Key × Value)) (p : Key → Bool) (key : Key) :
    get? (d.filter fun item => p item.1) key = if p key = true then get? d key else none := by
  induction d with
  | nil => simp [get?_nil]
  | cons item rest ih =>
      by_cases hitem : p item.1 = true
      · rw [List.filter_cons, if_pos hitem, get?_cons, get?_cons, ih]
        by_cases heq : item.1 = key
        · rw [if_pos heq, if_pos heq, if_pos (heq ▸ hitem)]
        · rw [if_neg heq, if_neg heq]
      · rw [List.filter_cons, if_neg hitem, get?_cons, ih]
        by_cases heq : item.1 = key
        · rw [if_pos heq, ← heq, if_neg hitem, if_neg hitem]
        · rw [if_neg heq]

/-- The value of a key in a dict that is made from a list. -/
theorem get?_map_of_mem {Source : Type} {sources : List Source} {key : Source → Key}
    {value : Source → Value} {source : Source}
    (hinj : ∀ other ∈ sources, key other = key source → other = source)
    (hmem : source ∈ sources) :
    get? (sources.map fun other => (key other, value other)) (key source) =
      some (value source) := by
  induction sources with
  | nil => simp at hmem
  | cons first sources ih =>
      rw [List.forall_mem_cons] at hinj
      rw [List.map_cons, get?_cons]
      split
      · rename_i heq
        rw [hinj.1 heq]
      · rename_i hne
        rcases List.mem_cons.mp hmem with rfl | hmem
        · exact absurd rfl hne
        · exact ih hinj.2 hmem

/-- The value of a key among items that are made for some keys. -/
theorem get?_flatMap_key {items : Key → List (Key × Value)}
    (hitems : ∀ key, ∀ item ∈ items key, item.1 = key) (keys : List Key) (key : Key) :
    get? (keys.flatMap items) key = if key ∈ keys then get? (items key) key else none := by
  have happend : ∀ d d' : List (Key × Value),
      get? (d ++ d') key = (get? d key).or (get? d' key) := by
    intro d d'
    induction d with
    | nil => rfl
    | cons item d ih =>
        rw [List.cons_append, get?_cons, get?_cons, ih]
        split <;> rfl
  induction keys with
  | nil => rfl
  | cons other keys ih =>
      rw [List.flatMap_cons, happend, ih]
      by_cases hkey : key = other
      · rw [← hkey, if_pos List.mem_cons_self]
        cases get? (items key) key <;> simp
      · have hnone : get? (items other) key = none := by
          rw [get?_eq_none]
          intro hmem
          obtain ⟨item, hitem, heq⟩ := List.mem_map.mp hmem
          exact hkey (heq.symm.trans (hitems other item hitem))
        rw [hnone, Option.none_or]
        simp [hkey]

/-- The value of a key in a dict that is made for some keys. -/
theorem get?_filterMap_key (value : Key → Option Value) (keys : List Key) (key : Key) :
    get? (keys.filterMap fun other => (value other).map fun found => (other, found)) key =
      if key ∈ keys then value key else none := by
  have hflat : (keys.filterMap fun other => (value other).map fun found => (other, found)) =
      keys.flatMap fun other => ((value other).map fun found => (other, found)).toList :=
    List.filterMap_eq_flatMap_toList _ _
  rw [hflat, get?_flatMap_key]
  · cases value key <;> simp [get?_cons, get?_nil]
  · intro other item hitem
    obtain ⟨found, -, rfl⟩ := Option.map_eq_some_iff.mp (Option.mem_toList.mp hitem)
    rfl

/-- A key that comes from no element of the list. -/
theorem get?_map_of_notMem {Source : Type} {sources : List Source} {key : Source → Key}
    {value : Source → Value} {source : Source}
    (hinj : ∀ other ∈ sources, key other = key source → other = source)
    (hnew : source ∉ sources) :
    get? (sources.map fun other => (key other, value other)) (key source) = none := by
  rw [get?_eq_none, keys, List.map_map]
  intro hkey
  obtain ⟨other, hother, heq⟩ := List.mem_map.mp hkey
  exact hnew (hinj other hother heq ▸ hother)

/-- A new value for a key in a dict that is made from a list. -/
theorem insert_map {Source : Type} {sources : List Source} {key : Source → Key}
    {value : Source → Value} {source : Source} [DecidableEq Source]
    (hinj : ∀ other ∈ sources, key other = key source → other = source)
    (hnodup : sources.Nodup) (hmem : source ∈ sources) (value' : Value) :
    insert (sources.map fun other => (key other, value other)) (key source) value' =
      sources.map fun other => (key other, if other = source then value' else value other) := by
  induction sources with
  | nil => simp at hmem
  | cons first sources ih =>
      rw [List.forall_mem_cons] at hinj
      rw [List.nodup_cons] at hnodup
      rw [List.map_cons, List.map_cons, insert_cons]
      by_cases h : first = source
      · subst h
        rw [if_pos rfl, if_pos rfl]
        refine congrArg _ (List.map_congr_left fun other hother => ?_)
        have hne : other ≠ first := fun heq => hnodup.1 (heq ▸ hother)
        rw [if_neg hne]
      · have hmem : source ∈ sources := by
          rcases List.mem_cons.mp hmem with heq | hmem
          · exact absurd heq.symm h
          · exact hmem
        rw [if_neg fun heq => h (hinj.1 heq), if_neg h, ih hinj.2 hnodup.2 hmem]

/-- The items after an insertion: the new one, and the old ones with another key. -/
theorem mem_insert_iff {d : List (Key × Value)} (hnodup : (keys d).Nodup) {key : Key}
    {value : Value} {item : Key × Value} :
    item ∈ insert d key value ↔ item = (key, value) ∨ (item ∈ d ∧ item.1 ≠ key) := by
  induction d with
  | nil => simp [insert_nil]
  | cons first d ih =>
      rw [keys_cons, List.nodup_cons] at hnodup
      rw [insert_cons]
      split
      · rename_i hkey
        have hother : ∀ {other}, other ∈ d → other.1 ≠ key := by
          intro other hmem heq
          exact hnodup.1 (hkey.trans heq.symm ▸ List.mem_map_of_mem hmem)
        rw [List.mem_cons, List.mem_cons]
        constructor
        · exact Or.imp_right fun hmem => ⟨Or.inr hmem, hother hmem⟩
        · rintro (heq | ⟨rfl | hmem, hne⟩)
          · exact Or.inl heq
          · exact absurd hkey hne
          · exact Or.inr hmem
      · rename_i hkey
        rw [List.mem_cons, List.mem_cons, ih hnodup.2]
        constructor
        · rintro (rfl | heq | ⟨hmem, hne⟩)
          · exact Or.inr ⟨Or.inl rfl, hkey⟩
          · exact Or.inl heq
          · exact Or.inr ⟨Or.inr hmem, hne⟩
        · rintro (heq | ⟨rfl | hmem, hne⟩)
          · exact Or.inr (Or.inl heq)
          · exact Or.inl rfl
          · exact Or.inr (Or.inr ⟨hmem, hne⟩)

/-- A new key goes to the end. -/
theorem insert_of_notMem {d : List (Key × Value)} {key : Key} (value : Value)
    (h : key ∉ keys d) : insert d key value = d ++ [(key, value)] := by
  induction d with
  | nil => rfl
  | cons item d ih =>
      rw [keys_cons, List.mem_cons, not_or] at h
      rw [insert_cons, if_neg (Ne.symm h.1), ih h.2, List.cons_append]

/-- The keys after an insertion. -/
theorem keys_insert (d : List (Key × Value)) (key : Key) (value : Value) :
    keys (insert d key value) = if key ∈ keys d then keys d else keys d ++ [key] := by
  induction d with
  | nil => simp [insert_nil]
  | cons item d ih =>
      by_cases h : item.1 = key
      · simp [insert_cons, h]
      · simp only [insert_cons, if_neg h, keys_cons, ih, List.mem_cons]
        by_cases hmem : key ∈ keys d
        · rw [if_pos hmem, if_pos (Or.inr hmem)]
        · rw [if_neg hmem, if_neg (not_or.mpr ⟨Ne.symm h, hmem⟩), List.cons_append]

/-- The keys of a dict stay different. -/
theorem nodup_keys_insert {d : List (Key × Value)} (h : (keys d).Nodup) (key : Key)
    (value : Value) : (keys (insert d key value)).Nodup := by
  rw [keys_insert]
  split
  · exact h
  · rename_i hmem
    rw [← List.concat_eq_append, List.nodup_concat]
    exact ⟨hmem, h⟩

/-- Inserting pairs with new and different keys appends them. -/
theorem foldl_insert_of_nodup (d pairs : List (Key × Value))
    (hnodup : (keys (d ++ pairs)).Nodup) :
    pairs.foldl (fun d pair => insert d pair.1 pair.2) d = d ++ pairs := by
  induction pairs generalizing d with
  | nil => simp
  | cons pair pairs ih =>
      have hnew : pair.1 ∉ keys d := by
        rw [keys_append, keys_cons, List.nodup_append] at hnodup
        intro hmem
        exact hnodup.2.2 _ hmem _ List.mem_cons_self rfl
      rw [List.foldl_cons, insert_of_notMem pair.2 hnew, ih, List.append_assoc]
      · rfl
      · rw [List.append_assoc]
        exact hnodup

/-- The value of a key that no source has, after one insertion for each source. -/
theorem get?_foldl_insert_of_notMem {Source : Type} (key : Source → Key)
    (value : Option Value → Source → Value) (sources : List Source) (d : List (Key × Value))
    {key' : Key} (hnew : key' ∉ sources.map key) :
    get? (sources.foldl
      (fun d source => insert d (key source) (value (get? d (key source)) source)) d) key' =
        get? d key' := by
  induction sources generalizing d with
  | nil => rfl
  | cons source sources ih =>
      rw [List.map_cons, List.mem_cons, not_or] at hnew
      rw [List.foldl_cons, ih _ hnew.2, get?_insert, if_neg hnew.1]

/-- The value of the key of a source, after one insertion for each source. Each insertion looks
at the value that the key has before. -/
theorem get?_foldl_insert_of_mem {Source : Type} (key : Source → Key)
    (value : Option Value → Source → Value) {sources : List Source} (d : List (Key × Value))
    (hnodup : (sources.map key).Nodup) {source : Source} (hmem : source ∈ sources) :
    get? (sources.foldl
      (fun d source => insert d (key source) (value (get? d (key source)) source)) d)
        (key source) = some (value (get? d (key source)) source) := by
  induction sources generalizing d with
  | nil => exact absurd hmem List.not_mem_nil
  | cons first sources ih =>
      rw [List.map_cons, List.nodup_cons] at hnodup
      rw [List.foldl_cons]
      rcases List.mem_cons.mp hmem with rfl | hmem
      · rw [get?_foldl_insert_of_notMem key value _ _ hnodup.1, get?_insert, if_pos rfl]
      · have hne : key source ≠ key first := fun heq =>
          hnodup.1 (heq ▸ List.mem_map_of_mem hmem)
        rw [ih _ hnodup.2 hmem, get?_insert, if_neg hne]

/-- Updating with one dict after the other. -/
theorem foldl_update {Source : Type} (d : List (Key × Value)) (sources : List Source)
    (items : Source → List (Key × Value)) :
    sources.foldl (fun d source => update d (items source)) d =
      update d (sources.flatMap items) := by
  induction sources generalizing d with
  | nil => rfl
  | cons source sources ih =>
      rw [List.foldl_cons, ih, List.flatMap_cons, update, update, update, List.foldl_append]

/-- Two updates, one after the other. -/
theorem update_append (d items items' : List (Key × Value)) :
    update d (items ++ items') = update (update d items) items' :=
  List.foldl_append ..

/-- A dict that is made from items with different keys. -/
theorem update_nil_of_nodup {items : List (Key × Value)} (h : (keys items).Nodup) :
    update [] items = items :=
  foldl_insert_of_nodup [] items h

/-! ### After an update -/

/-- The value of a key after an update: that of its last item, or else the one before. -/
theorem get?_update (d items : List (Key × Value)) (key : Key) :
    get? (update d items) key =
      ((items.reverse.find? fun item => item.1 = key).map Prod.snd).or (get? d key) := by
  induction items generalizing d with
  | nil => rfl
  | cons item rest ih =>
      show get? (update (insert d item.1 item.2) rest) key = _
      rw [ih, get?_insert, List.reverse_cons, List.find?_append]
      cases rest.reverse.find? fun item => item.1 = key with
      | some found => rfl
      | none =>
          by_cases hkey : item.1 = key
          · simp [hkey]
          · simp [hkey, Ne.symm hkey]

/-- The first key with a property after an update: the one before, or else that of the first
item. -/
theorem find?_keys_update (d items : List (Key × Value)) (p : Key → Bool) :
    (keys (update d items)).find? p = ((keys d).find? p).or ((keys items).find? p) := by
  induction items generalizing d with
  | nil => exact Option.or_none.symm
  | cons item rest ih =>
      have hinsert : (keys (insert d item.1 item.2)).find? p =
          ((keys d).find? p).or ([item.1].find? p) := by
        rw [keys_insert]
        split
        · rename_i hmem
          cases hfound : (keys d).find? p with
          | some found => rfl
          | none =>
              have hp := List.find?_eq_none.mp hfound item.1 hmem
              simp [hp]
        · exact List.find?_append
      show (keys (update (insert d item.1 item.2) rest)).find? p = _
      rw [ih, hinsert, keys_cons, List.find?_cons, Option.or_assoc]
      cases hp : p item.1 <;> simp [hp]

/-- The keys of an updated dict stay different. -/
theorem nodup_keys_update {d : List (Key × Value)} (h : (keys d).Nodup)
    (items : List (Key × Value)) : (keys (update d items)).Nodup := by
  induction items generalizing d with
  | nil => exact h
  | cons item rest ih => exact ih (nodup_keys_insert h _ _)

/-! ### The last item of each key -/

/-- The sources that no other one with the same key comes after. -/
def lastBy {Source : Type} (key : Source → Key) : List Source → List Source
  | [] => []
  | source :: rest =>
      if key source ∈ rest.map key then lastBy key rest else source :: lastBy key rest

/-- The items after an insertion, in another order. -/
theorem insert_perm {d : List (Key × Value)} (hnodup : (keys d).Nodup) (key : Key)
    (value : Value) : (insert d key value).Perm (erase d key ++ [(key, value)]) := by
  induction d with
  | nil => exact List.Perm.refl _
  | cons item rest ih =>
      rw [keys_cons, List.nodup_cons] at hnodup
      rw [insert_cons, erase, List.filter_cons]
      by_cases heq : item.1 = key
      · have hrest : (rest.filter fun other => decide (other.1 ≠ key)) = rest := by
          refine List.filter_eq_self.mpr fun other hother => decide_eq_true fun hkey => ?_
          exact hnodup.1 (heq.trans hkey.symm ▸ List.mem_map_of_mem hother)
        rw [if_pos heq, if_neg (by simpa using heq), hrest]
        exact (List.perm_append_singleton (key, value) rest).symm
      · rw [if_neg heq, if_pos (by simpa using heq)]
        exact (ih hnodup.2).cons item

/-- A dict after one insertion for each source: the old items with other keys, and the items of
the sources that come last. -/
theorem foldl_insert_perm {Source : Type} (key : Source → Key) (value : Source → Value)
    (sources : List Source) :
    ∀ {d : List (Key × Value)}, (keys d).Nodup →
      (sources.foldl (fun d source => insert d (key source) (value source)) d).Perm
        ((d.filter fun item => item.1 ∉ sources.map key) ++
          (lastBy key sources).map fun source => (key source, value source)) := by
  induction sources with
  | nil =>
      intro d _
      rw [List.foldl_nil, List.filter_eq_self.mpr (by simp), lastBy, List.map_nil, List.append_nil]
  | cons source rest ih =>
      intro d hnodup
      rw [List.foldl_cons]
      refine (ih (nodup_keys_insert hnodup (key source) (value source))).trans ?_
      refine (((insert_perm hnodup _ _).filter _).append_right _).trans ?_
      have hold : ((erase d (key source)).filter fun item => decide (item.1 ∉ rest.map key)) =
          d.filter fun item => decide (item.1 ∉ (source :: rest).map key) := by
        unfold erase
        rw [List.filter_filter]
        refine List.filter_congr fun item _ => ?_
        rw [← Bool.decide_and, List.map_cons]
        refine decide_eq_decide.mpr ?_
        rw [List.mem_cons, not_or, and_comm]
      rw [List.filter_append, hold, List.append_assoc, List.filter_cons, List.filter_nil, lastBy]
      -- Only a source that no other one with the same key comes after stays.
      by_cases hlater : key source ∈ rest.map key
      · rw [if_pos hlater, if_neg (by simpa using hlater)]
        exact List.Perm.refl _
      · rw [if_neg hlater, if_pos (by simpa using hlater)]
        exact List.Perm.refl _

end Onadata.Lib.Dict
